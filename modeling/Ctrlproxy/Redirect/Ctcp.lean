import Ctrlproxy.Base.Casemap
import Ctrlproxy.Client.Send
import Ctrlproxy.Lib.Lists

/-!
# Redirect — who gets the CTCP replies

`src/ctcp_redirect.c`: the requests of all clients stand in one queue, and a reply goes to the first
of them that has its network, its command and its sender.  A client that leaves is no longer a client
of its network (`handle_client_disconnect`), and the requests it made stay in the queue: the reference
a client is made with is dropped nowhere, so they still find it, and it takes no line.

`Books` is what the queue is for: every request that was made, whether it was answered, and which
client got which reply.  `replies_routed` says that the queue keeps the books in every run in which
the first request that could be taken for a reply is always the one to take.

The destination of a request is compared by `strcmp`; the network compares by its mapping.  What
happens to a request on its way to the server is left out, and so are the clients of a network, which
the queue does not look at.
-/

namespace Ctrlproxy.Ctcp
open Outcome

/-! ### The queue -/

/-- The character a CTCP message starts with. -/
def ctcpMark : Byte := ⟨1, byte_one⟩

/-- The command of a message, behind its mark. -/
def ctcpCommand (tmp : Str) : Option Str :=
  if chr ' ' ∈ tmp then some (tmp.takeWhile (· ≠ chr ' '))
  else if ctcpMark ∈ tmp then some (tmp.reverse.dropWhile (· ≠ ctcpMark)).tail.reverse
  else none

/-- `get_ctcp_command`. -/
def getCtcpCommand (data : Str) : Except Fault (Option Str) :=
  if data.head? = some ctcpMark then .ok (ctcpCommand data.tail) else .error .assertion

/-- `struct ctcp_request`. -/
structure Request where
  client : ℕ
  destination : Option Str
  command : Str
  deriving DecidableEq

/-- A client of a network. -/
structure Attached where
  network : ℕ
  client : Client

/-- The clients in the order they came, what is known of the networks, and `ctcp_request_queue`. -/
structure Proxy where
  clients : List Attached
  info : ℕ → NetworkInfo
  queue : List Request

def Proxy.client (p : Proxy) (c : ℕ) : Except Fault Attached :=
  match p.clients[c]? with
  | none => .error .dangling
  | some a => .ok a

/-- `ctcp_client_request_record`. -/
def ctcpClientRequestRecord (p : Proxy) (c : ℕ) (l : IrcLine) : Except Fault (Bool × Proxy) := do
  let data ← l.argStr 2
  match ← getCtcpCommand data with
  | none => pure (false, p)
  | some command => do
      let target ← l.argStr 1
      let a ← p.client c
      let channel ← isChannelname target (p.info a.network)
      let req := ⟨c, if channel then none else some target, command⟩
      pure (true, { p with queue := p.queue ++ [req] })

/-- The loop of `ctcp_network_redirect_response`: the request that was found, and the queue without
it. -/
def findRequest (p : Proxy) (n : ℕ) (nick command : Str) :
    List Request → Except Fault (Option (Request × List Request))
  | [] => .ok none
  | req :: queue => do
      let a ← p.client req.client
      if a.network = n ∧ (∀ d ∈ req.destination, d = nick) ∧ req.command = command then
        pure (some (req, queue))
      else
        pure ((← findRequest p n nick command queue).map fun r => (r.1, req :: r.2))

/-- `ctcp_network_redirect_response`. -/
def ctcpNetworkRedirectResponse (now : Long) (p : Proxy) (n : ℕ) (l : IrcLine) :
    Except Fault (Bool × Proxy) := do
  let data ← l.argStr 2
  let command ← getCtcpCommand data
  let nick ← lineGetNick l
  match command with
  | none => pure (false, p)
  | some command => match ← findRequest p n nick command p.queue with
      | none => pure (true, p)
      | some (req, queue) => do
          let a ← p.client req.client
          let (_, c) ← clientSendLine now a.client l
          pure (true, { p with
            clients := p.clients.set req.client { a with client := c }
            queue := queue })

/-- `client_disconnect`: nothing is sent to the client any more. -/
def clientDisconnect (p : Proxy) (c : ℕ) : Proxy :=
  { p with clients := p.clients.modify c fun a =>
      { a with client := { a.client with connected := false } } }

/-! ### Runs -/

/-- A line that carries a CTCP message. -/
def isCtcp (cmd : Str) (l : IrcLine) : Bool :=
  match l.args with
  | name :: _ :: data :: _ => baseEq (some name) cmd && data.head? = some ctcpMark
  | _ => false

/-- The lines `process_from_client` records: an action asks for nothing. -/
def isRequest (l : IrcLine) : Bool :=
  isCtcp (str "PRIVMSG") l && !baseEqN (l.args.getD 2 []) (ctcpMark :: str "ACTION") 7

/-- The lines `process_from_server` looks up a client for. -/
def isReply (l : IrcLine) : Bool := isCtcp (str "NOTICE") l

inductive Event where
  /-- a client comes to a network -/
  | connect (n : ℕ) (defaultOrigin : Option Str) (state : Option NetworkState)
  /-- the server tells about its network -/
  | announce (n : ℕ) (info : NetworkInfo)
  /-- a line of a client -/
  | request (c : ℕ) (l : IrcLine)
  /-- a client leaves -/
  | disconnect (c : ℕ)
  /-- a line of a server -/
  | reply (now : Long) (n : ℕ) (l : IrcLine)

/-- No clients, and nothing known of the networks. -/
def Proxy.start : Proxy := ⟨[], fun _ => networkInfoInit, []⟩

def Proxy.step (p : Proxy) : Event → Except Fault Proxy
  | .connect n o s => .ok { p with clients := p.clients ++ [⟨n, ⟨true, o, s, []⟩⟩] }
  | .announce n i => .ok { p with info := fun n' => if n' = n then i else p.info n' }
  | .request c l => if isRequest l then (ctcpClientRequestRecord p c l).map Prod.snd else .ok p
  | .disconnect c => .ok (clientDisconnect p c)
  | .reply now n l =>
      if isReply l then (ctcpNetworkRedirectResponse now p n l).map Prod.snd else .ok p

/-! ### The books -/

/-- What was asked for and what became of it. -/
structure Books where
  /-- of every client its network, and whether it is connected -/
  clients : List (ℕ × Bool)
  info : ℕ → NetworkInfo
  /-- every request, and whether it was answered -/
  requests : List (Request × Bool)
  /-- which client got which reply -/
  delivered : List (ℕ × IrcLine)

/-- Whether a request waits for a reply: its client is there to get one, and its destination is the
sender, as the network compares them, or a channel. -/
def Books.awaits (b : Books) (n : ℕ) (nick command : Str) (e : Request × Bool) : Bool :=
  !e.2 && decide (b.clients[e.1.client]? = some (n, true) ∧ e.1.command = command ∧
    ∀ d ∈ e.1.destination, irccmpStr (b.info n).casemapping d nick = 0)

/-- The first request that awaits a reply is answered. -/
def Books.answer (b : Books) (n : ℕ) (nick command : Str) (l : IrcLine) : Books :=
  match b.requests.dropWhile (!b.awaits n nick command ·) with
  | [] => b
  | e :: rest => { b with
      requests := b.requests.takeWhile (!b.awaits n nick command ·) ++ (e.1, true) :: rest
      delivered := b.delivered ++ [(e.1.client, l)] }

/-- The request a line of a client makes. -/
def Books.made (b : Books) (c : ℕ) (l : IrcLine) : Option Request := do
  let command ← ctcpCommand (l.args.getD 2 []).tail
  let (n, _) ← b.clients[c]?
  let target := l.args.getD 1 []
  pure ⟨c, if isChannelname target (b.info n) = .ok true then none else some target, command⟩

def Books.start : Books := ⟨[], fun _ => networkInfoInit, [], []⟩

def Books.step (b : Books) : Event → Books
  | .connect n _ _ => { b with clients := b.clients ++ [(n, true)] }
  | .announce n i => { b with info := fun n' => if n' = n then i else b.info n' }
  | .request c l => if isRequest l then
        { b with requests := b.requests ++ ((b.made c l).map fun r => (r, false)).toList }
      else b
  | .disconnect c => { b with clients := b.clients.modify c fun e => (e.1, false) }
  | .reply _ n l => if isReply l then
        match l.origin, ctcpCommand (l.args.getD 2 []).tail with
        | some o, some command => b.answer n (o.takeWhile (· ≠ chr '!')) command l
        | _, _ => b
      else b

/-- What the books have of a client. -/
def Books.sentTo (b : Books) (c : ℕ) : List IrcLine :=
  (b.delivered.filter fun e => e.1 = c).map Prod.snd

/-- The requests that are not answered. -/
def unanswered (requests : List (Request × Bool)) : List Request :=
  (requests.filter fun e => !e.2).map Prod.fst

/-- The queue is the unanswered requests, and every client got what the books say. -/
structure Kept (p : Proxy) (b : Books) : Prop where
  clients : b.clients = p.clients.map fun a => (a.network, a.client.connected)
  info : b.info = p.info
  queue : p.queue = unanswered b.requests
  asked : ∀ r ∈ p.queue, r.client < p.clients.length
  sent : ∀ c a, p.clients[c]? = some a → a.client.sent.map Prod.snd = b.sentTo c
  known : ∀ e ∈ b.delivered, e.1 < p.clients.length

/-! ### When the queue is right -/

/-- A request on a network for a command, to a nick as the network compares it or to a channel. -/
def Proxy.asks (p : Proxy) (n : ℕ) (nick command : Str) (r : Request) : Bool :=
  match p.clients[r.client]? with
  | none => false
  | some a => decide (a.network = n ∧ r.command = command ∧
      ∀ d ∈ r.destination, irccmpStr (p.info n).casemapping d nick = 0)

/-- The client of a request is connected. -/
def Proxy.present (p : Proxy) (r : Request) : Bool :=
  match p.clients[r.client]? with
  | none => false
  | some a => a.client.connected

/-- A destination that `strcmp` takes for a nick. -/
def Request.names (r : Request) (nick : Str) : Bool := decide (∀ d ∈ r.destination, d = nick)

/-- Of the requests a reply could answer, the first one that has a connected client or has the nick
letter by letter has both. -/
def Proxy.Clear (p : Proxy) : Event → Prop
  | .reply _ n l => ∀ o command, isReply l = true → l.origin = some o →
      ctcpCommand (l.args.getD 2 []).tail = some command → ∀ r,
      p.queue.find? (fun r => p.asks n (o.takeWhile (· ≠ chr '!')) command r &&
        (p.present r || r.names (o.takeWhile (· ≠ chr '!')))) = some r →
      p.present r = true ∧ r.names (o.takeWhile (· ≠ chr '!')) = true
  | _ => True

section
variable {p : Proxy} {b : Books} {n c : ℕ} {nick command cmd : Str} {l : IrcLine} {r : Request}
  {now : Long} {queue : List Request} {a : Attached}

/-- The requests the loop stops at. -/
def Proxy.takes (p : Proxy) (n : ℕ) (nick command : Str) (r : Request) : Bool :=
  p.asks n nick command r && r.names nick

/-- The requests that await a reply, of those that are not answered. -/
def Proxy.owes (p : Proxy) (n : ℕ) (nick command : Str) (r : Request) : Bool :=
  p.asks n nick command r && p.present r

theorem irccmpStr_self (m : Casemapping) (a : Str) : irccmpStr m a a = 0 :=
  (irccmpStr_eq_zero_iff m a a).mpr rfl

/-- The loop stops at the first request it takes. -/
theorem findRequest_eq (h : ∀ r ∈ queue, r.client < p.clients.length) :
    findRequest p n nick command queue = .ok (match queue.dropWhile (!p.takes n nick command ·) with
      | [] => none
      | r :: rest => some (r, queue.takeWhile (!p.takes n nick command ·) ++ rest)) := by
  induction queue with
  | nil => rfl
  | cons r queue ih =>
      obtain ⟨hr, hrest⟩ := List.forall_mem_cons.mp h
      have ha : p.clients[r.client]? = some p.clients[r.client] := List.getElem?_eq_getElem hr
      have htakes : p.takes n nick command r = decide (p.clients[r.client].network = n ∧
          (∀ d ∈ r.destination, d = nick) ∧ r.command = command) := by
        rw [Proxy.takes, Proxy.asks, ha, Request.names, ← Bool.decide_and]
        refine decide_eq_decide.mpr ⟨?_, ?_⟩
        · rintro ⟨⟨hn, hc, -⟩, hd⟩
          exact ⟨hn, hd, hc⟩
        · rintro ⟨hn, hd, hc⟩
          exact ⟨⟨hn, hc, fun d hmem => hd d hmem ▸ irccmpStr_self _ _⟩, hd⟩
      rw [findRequest, Proxy.client, ha, ok_bind]
      by_cases hstop : p.clients[r.client].network = n ∧
          (∀ d ∈ r.destination, d = nick) ∧ r.command = command
      · have htrue : p.takes n nick command r = true := htakes.trans (decide_eq_true hstop)
        rw [if_pos hstop]
        simp [htrue]
      · have hfalse : p.takes n nick command r = false := htakes.trans (decide_eq_false hstop)
        rw [if_neg hstop, ih hrest, ok_bind]
        simp only [List.dropWhile_cons, List.takeWhile_cons, hfalse, Bool.not_false, if_true]
        cases queue.dropWhile (!p.takes n nick command ·) <;> rfl

/-- What the books say awaits a reply is what the proxy owes. -/
theorem Kept.awaits_eq (h : Kept p b) (e : Request × Bool) :
    b.awaits n nick command e = (!e.2 && p.owes n nick command e.1) := by
  rw [Books.awaits, h.clients, h.info, List.getElem?_map, Proxy.owes, Proxy.asks, Proxy.present]
  congr 1
  cases hc : p.clients[e.1.client]? with
  | none => simp
  | some a =>
      cases hconn : a.client.connected <;> simp [hconn]

/-- The first request of the books that passes a test is the first of the unanswered ones. -/
theorem unanswered_cut (T : Request → Bool) (requests : List (Request × Bool)) :
    unanswered (requests.takeWhile fun e => !(!e.2 && T e.1)) =
        (unanswered requests).takeWhile (!T ·) ∧
      match requests.dropWhile fun e => !(!e.2 && T e.1) with
      | [] => (unanswered requests).dropWhile (!T ·) = []
      | e :: rest => (unanswered requests).dropWhile (!T ·) = e.1 :: unanswered rest := by
  induction requests with
  | nil => exact ⟨rfl, rfl⟩
  | cons e requests ih =>
      obtain ⟨r, answered⟩ := e
      cases answered with
      | true =>
          have hskip : ∀ l, unanswered ((r, true) :: l) = unanswered l := fun l => by
            simp [unanswered]
          rw [hskip, List.takeWhile_cons_of_pos rfl, List.dropWhile_cons_of_pos rfl, hskip]
          exact ih
      | false =>
          have hopen : ∀ l, unanswered ((r, false) :: l) = r :: unanswered l := fun l => by
            simp [unanswered]
          rw [hopen]
          cases hT : T r with
          | true =>
              rw [List.takeWhile_cons_of_neg (by simp [hT]),
                List.dropWhile_cons_of_neg (by simp [hT]),
                List.takeWhile_cons_of_neg (by simp [hT]),
                List.dropWhile_cons_of_neg (by simp [hT])]
              exact ⟨rfl, rfl⟩
          | false =>
              rw [List.takeWhile_cons_of_pos (by simp [hT]),
                List.dropWhile_cons_of_pos (by simp [hT]),
                List.takeWhile_cons_of_pos (by simp [hT]),
                List.dropWhile_cons_of_pos (by simp [hT]), hopen, ih.1]
              exact ⟨rfl, ih.2⟩

theorem isCtcp_args (h : isCtcp cmd l = true) : ∃ name target data rest,
    l.args = name :: target :: data :: rest ∧ baseEq (some name) cmd = true ∧
      data.head? = some ctcpMark := by
  unfold isCtcp at h
  split at h
  · next name target data rest hargs =>
    rw [Bool.and_eq_true, decide_eq_true_eq] at h
    exact ⟨name, target, data, rest, hargs, h⟩
  · cases h

/-- No handler takes a NOTICE. -/
theorem commandOf_reply (h : isReply l = true) : commandOf l = none := by
  obtain ⟨name, target, data, rest, hargs, hname, -⟩ := isCtcp_args h
  have hnone : (ircCommands.find? fun e => baseEq (some name) e.1) = none := by
    simp only [baseEq_of_baseEq hname]
    decide
  rw [commandOf, hargs]
  simp only [hnone]

theorem clientSendLine_reply (h : isReply l = true) {x : Client} (hx : x.connected = true) :
    clientSendLine now x l = .ok (true, { x with sent := x.sent ++ [(now, l)] }) := by
  have hnone := commandOf_reply h
  rw [clientSendLine, if_neg (by simp [hx])]
  cases hs : x.state with
  | none => rfl
  | some s =>
      simp only [stateHandleData, hnone, ok_bind, strippedLine]
      rfl

/-! ### Every event keeps the books -/

theorem Kept.start : Kept Proxy.start Books.start where
  clients := rfl
  info := rfl
  queue := rfl
  asked := nofun
  sent _ _ h := by cases h
  known := nofun

/-- A client that was told nothing comes. -/
theorem Kept.connect (h : Kept p b) (n : ℕ) (o : Option Str) (s : Option NetworkState) :
    Kept { p with clients := p.clients ++ [⟨n, ⟨true, o, s, []⟩⟩] }
      { b with clients := b.clients ++ [(n, true)] } where
  clients := by simp [h.clients]
  info := h.info
  queue := h.queue
  asked r hr := by
    have := h.asked r hr
    simp only [List.length_append]
    omega
  sent c a ha := by
    rcases Nat.lt_trichotomy c p.clients.length with hlt | rfl | hgt
    · rw [List.getElem?_append_left hlt] at ha
      exact h.sent c a ha
    · rw [List.getElem?_concat_length] at ha
      cases ha
      -- the books have nothing of a client that was not there yet
      have hnone : b.delivered.filter (fun e => e.1 = p.clients.length) = [] := by
        refine List.filter_eq_nil_iff.mpr fun e he heq => ?_
        have := h.known e he
        simp only [decide_eq_true_eq] at heq
        omega
      show _ = Books.sentTo _ _
      rw [Books.sentTo, hnone]
      rfl
    · rw [List.getElem?_eq_none (by simp; omega)] at ha
      cases ha
  known e he := by
    have := h.known e he
    simp only [List.length_append]
    omega

/-- A request is put at the end of the queue when the books note it. -/
theorem Kept.request {l : IrcLine} {ret : Bool} {p' : Proxy} (h : Kept p b) (hl : isRequest l = true)
    (hstep : ctcpClientRequestRecord p c l = .ok (ret, p')) :
    Kept p' { b with requests := b.requests ++ ((b.made c l).map fun r => (r, false)).toList } := by
  obtain ⟨name, target, data, rest, hargs, -, hmark⟩ := isCtcp_args (Bool.and_eq_true_iff.mp hl).1
  have hdata : l.args[2]? = some data := by rw [hargs]; rfl
  have htarget : l.args[1]? = some target := by rw [hargs]; rfl
  have hmade : b.made c l = (ctcpCommand data.tail).bind fun command =>
      b.clients[c]?.bind fun e =>
        some ⟨c, if isChannelname target (b.info e.1) = .ok true then none else some target,
          command⟩ := by
    rw [Books.made, hargs]
    rfl
  unfold ctcpClientRequestRecord at hstep
  rw [IrcLine.argStr_eq hdata, ok_bind, getCtcpCommand, if_pos hmark, ok_bind] at hstep
  cases hcommand : ctcpCommand data.tail with
  | none =>
      rw [hcommand] at hstep
      cases hstep
      rw [hmade, hcommand]
      simpa using h
  | some command =>
      rw [hcommand] at hstep
      dsimp only at hstep
      rw [IrcLine.argStr_eq htarget, ok_bind] at hstep
      obtain ⟨a, ha, hstep⟩ := bind_eq_ok hstep
      obtain ⟨channel, hchannel, hstep⟩ := bind_eq_ok hstep
      cases hstep
      have hclient : p.clients[c]? = some a := by
        unfold Proxy.client at ha
        split at ha
        · cases ha
        · next heq =>
          cases ha
          exact heq
      have hreq : b.made c l = some ⟨c, if channel then none else some target, command⟩ := by
        rw [hmade, hcommand, h.clients, List.getElem?_map, hclient, h.info]
        cases channel <;> simp [hchannel]
      rw [hreq]
      refine { h with queue := ?_, asked := fun r hr => ?_ }
      · simp [h.queue, unanswered]
      · rcases List.mem_append.mp hr with hr | hr
        · exact h.asked r hr
        · cases List.mem_singleton.mp hr
          exact (List.getElem?_eq_some_iff.mp hclient).1

/-- What a client asked for outlives it. -/
theorem Kept.disconnect (h : Kept p b) (c : ℕ) :
    Kept (clientDisconnect p c) { b with clients := b.clients.modify c fun e => (e.1, false) } where
  clients := by
    refine List.ext_getElem? fun i => ?_
    rw [h.clients]
    simp only [clientDisconnect, List.getElem?_map, List.getElem?_modify]
    cases p.clients[i]? with
    | none => rfl
    | some a =>
        simp only [Option.map_some]
        split <;> rfl
  info := h.info
  queue := h.queue
  asked r hr := by
    have := h.asked r hr
    simpa [clientDisconnect] using this
  sent i a ha := by
    simp only [clientDisconnect, List.getElem?_modify] at ha
    obtain ⟨a₀, ha₀, rfl⟩ := Option.map_eq_some_iff.mp ha
    have hsent := h.sent i a₀ ha₀
    split <;> exact hsent
  known e he := by
    have := h.known e he
    simpa [clientDisconnect] using this

/-- A request is answered: its client gets the line, the others keep what they have. -/
theorem Kept.answered {l : IrcLine} {rest : List (Request × Bool)} {e : Request × Bool}
    {taken : List (Request × Bool)} (h : Kept p b) (ha : p.clients[e.1.client]? = some a)
    (hqueue : queue = unanswered (taken ++ (e.1, true) :: rest))
    (hsub : ∀ r ∈ queue, r ∈ p.queue) :
    Kept { p with
        clients := p.clients.set e.1.client
          { a with client := { a.client with sent := a.client.sent ++ [(now, l)] } }
        queue := queue }
      { b with
        requests := taken ++ (e.1, true) :: rest
        delivered := b.delivered ++ [(e.1.client, l)] } where
  clients := by
    refine List.ext_getElem? fun i => ?_
    rw [h.clients]
    simp only [List.getElem?_map, List.getElem?_set]
    split
    · next heq =>
      subst heq
      have hlt := (List.getElem?_eq_some_iff.mp ha).1
      rw [if_pos hlt, ha]
      rfl
    · rfl
  info := h.info
  queue := hqueue
  asked r hr := by
    rw [List.length_set]
    exact h.asked r (hsub r hr)
  sent i x hx := by
    rw [List.getElem?_set] at hx
    rw [Books.sentTo, List.filter_append]
    by_cases heq : e.1.client = i
    · subst heq
      have hlt := (List.getElem?_eq_some_iff.mp ha).1
      rw [if_pos rfl, if_pos hlt] at hx
      cases hx
      have hsent := h.sent _ a ha
      rw [Books.sentTo] at hsent
      simp [hsent]
    · rw [if_neg heq] at hx
      have hsent := h.sent i x hx
      rw [Books.sentTo] at hsent
      simp [hsent, heq]
  known x hx := by
    rw [List.length_set]
    rcases List.mem_append.mp hx with hx | hx
    · exact h.known x hx
    · cases List.mem_singleton.mp hx
      exact (List.getElem?_eq_some_iff.mp ha).1

/-- A reply is looked up as in the books, if the state is clear. -/
theorem Kept.reply {l : IrcLine} {o : Str} (h : Kept p b) (hl : isReply l = true)
    (ho : l.origin = some o) (hclear : p.Clear (.reply now n l)) :
    ∃ p', p.step (.reply now n l) = .ok p' ∧ Kept p' (b.step (.reply now n l)) := by
  obtain ⟨name, target, data, rest, hargs, -, hmark⟩ := isCtcp_args hl
  have hdata : l.args[2]? = some data := by rw [hargs]; rfl
  have hgetD : l.args.getD 2 [] = data := by rw [hargs]; rfl
  simp only [Proxy.step, Books.step, if_pos hl, ho, hgetD, ctcpNetworkRedirectResponse,
    IrcLine.argStr_eq hdata, ok_bind, getCtcpCommand, if_pos hmark, lineGetNick]
  cases hcommand : ctcpCommand data.tail with
  | none => exact ⟨p, rfl, h⟩
  | some command =>
      dsimp only
      generalize hnick : o.takeWhile (· ≠ chr '!') = nick
      rw [findRequest_eq h.asked, ok_bind]
      -- the loop and the books stop at the same request
      have hcut := cut_congr (p := p.takes n nick command) (q := p.owes n nick command)
        (l := p.queue) fun r hr => by
          have hr' : p.queue.find? (fun r => p.asks n nick command r &&
              (p.present r || r.names nick)) = some r := by
            rw [← hr]
            congr 1
            funext r
            rw [Proxy.takes, Proxy.owes, ← Bool.and_or_distrib_left, Bool.or_comm]
          have hasks := List.find?_some hr'
          subst hnick
          obtain ⟨hpresent, hnames⟩ := hclear o command hl ho (hgetD ▸ hcommand) r hr'
          rw [hpresent, hnames, Bool.or_self, Bool.and_true] at hasks
          exact ⟨by rw [Proxy.takes, hasks, hnames]; rfl, by rw [Proxy.owes, hasks, hpresent]; rfl⟩
      obtain ⟨htake, hdrop⟩ := hcut
      have hawaits : b.awaits n nick command = fun e => !e.2 && p.owes n nick command e.1 :=
        funext h.awaits_eq
      obtain ⟨hopen, hfirst⟩ := unanswered_cut (p.owes n nick command) b.requests
      rw [Books.answer, hawaits, htake, hdrop, h.queue]
      cases hwait : b.requests.dropWhile (fun e => !(!e.2 && p.owes n nick command e.1)) with
      | nil =>
          rw [hwait] at hfirst
          rw [hfirst]
          exact ⟨p, rfl, h⟩
      | cons e later =>
          rw [hwait] at hfirst
          rw [hfirst, ← hopen]
          have howes : p.owes n nick command e.1 = true := by
            have hhead := List.head?_dropWhile_not
              (fun e => !(!e.2 && p.owes n nick command e.1)) b.requests
            rw [hwait] at hhead
            simp at hhead
            exact hhead.2
          have hqueue : ∀ r ∈ e.1 :: unanswered later, r ∈ p.queue := by
            intro r hr
            rw [← hfirst] at hr
            rw [h.queue]
            exact (List.dropWhile_sublist _).mem hr
          have hlt := h.asked e.1 (hqueue _ List.mem_cons_self)
          have ha : p.clients[e.1.client]? = some p.clients[e.1.client] := List.getElem?_eq_getElem hlt
          have hconn : p.clients[e.1.client].client.connected = true := by
            rw [Proxy.owes, Proxy.present, ha] at howes
            exact (Bool.and_eq_true_iff.mp howes).2
          dsimp only
          rw [Proxy.client, ha, ok_bind, clientSendLine_reply hl hconn, ok_bind]
          refine ⟨_, rfl, h.answered ha ?_ fun r hr => ?_⟩
          · simp [unanswered]
          · rcases List.mem_append.mp hr with hr | hr
            · rw [hopen] at hr
              rw [h.queue]
              exact (List.takeWhile_sublist _).mem hr
            · exact hqueue r (List.mem_cons_of_mem _ hr)

/-- A reply with an origin is always handled. -/
theorem reply_total {l : IrcLine} (h : ∀ r ∈ p.queue, r.client < p.clients.length)
    (ho : l.origin ≠ none) : ∃ p', p.step (.reply now n l) = .ok p' := by
  by_cases hl : isReply l = true
  · obtain ⟨name, target, data, rest, hargs, -, hmark⟩ := isCtcp_args hl
    have hdata : l.args[2]? = some data := by rw [hargs]; rfl
    obtain ⟨o, ho⟩ := Option.ne_none_iff_exists'.mp ho
    simp only [Proxy.step, if_pos hl, ctcpNetworkRedirectResponse, IrcLine.argStr_eq hdata, ok_bind,
      getCtcpCommand, if_pos hmark, lineGetNick, ho]
    cases hcommand : ctcpCommand data.tail with
    | none => exact ⟨p, rfl⟩
    | some command =>
        dsimp only
        rw [findRequest_eq h, ok_bind]
        split
        · exact ⟨p, rfl⟩
        · next req queue hfound =>
          have hreq : req ∈ p.queue := by
            split at hfound
            · cases hfound
            · next r rest hdrop =>
              cases hfound
              exact (List.dropWhile_sublist _).mem (hdrop ▸ List.mem_cons_self)
          obtain ⟨a, ha⟩ : ∃ a, p.clients[req.client]? = some a :=
            ⟨_, List.getElem?_eq_getElem (h req hreq)⟩
          rw [Proxy.client, ha, ok_bind]
          cases hconn : a.client.connected with
          | true =>
              rw [clientSendLine_reply hl hconn]
              exact ⟨_, rfl⟩
          | false =>
              rw [clientSendLine, if_pos hconn]
              exact ⟨_, rfl⟩
  · exact ⟨p, by rw [Proxy.step, if_neg hl]⟩

/-- A clear state and the books go on together. -/
theorem Kept.step {p' : Proxy} {e : Event} (h : Kept p b) (hclear : p.Clear e)
    (hp' : p.step e = .ok p') : Kept p' (b.step e) := by
  cases e with
  | connect n o s =>
      cases hp'
      exact h.connect n o s
  | announce n i =>
      cases hp'
      exact { h with info := by rw [Books.step, h.info] }
  | request c l =>
      rw [Proxy.step] at hp'
      rw [Books.step]
      split at hp'
      · next hl =>
        obtain ⟨⟨ret, p₁⟩, hrecord, rfl⟩ := map_eq_ok hp'
        rw [if_pos hl]
        exact h.request hl hrecord
      · next hl =>
        cases hp'
        rw [if_neg hl]
        exact h
  | disconnect c =>
      cases hp'
      exact h.disconnect c
  | reply now n l =>
      by_cases hl : isReply l = true
      · obtain ⟨name, target, data, rest, hargs, -, hmark⟩ := isCtcp_args hl
        have hdata : l.args[2]? = some data := by rw [hargs]; rfl
        cases ho : l.origin with
        | none =>
            simp only [Proxy.step, if_pos hl, ctcpNetworkRedirectResponse, IrcLine.argStr_eq hdata,
              ok_bind, getCtcpCommand, if_pos hmark, lineGetNick, ho] at hp'
            cases hp'
        | some o =>
            obtain ⟨p₁, hp₁, hkept⟩ := h.reply hl ho hclear
            cases hp₁.symm.trans hp'
            exact hkept
      · rw [Proxy.step, if_neg hl] at hp'
        cases hp'
        rw [Books.step, if_neg hl]
        exact h

theorem Kept.run {p₀ : Proxy} {run : List Event} (h : Kept p₀ b)
    (hclear : Along Proxy.step Proxy.Clear p₀ run) (hrun : run.foldlM Proxy.step p₀ = .ok p) :
    Kept p (run.foldl Books.step b) := by
  induction run generalizing p₀ b with
  | nil =>
      cases hrun
      exact h
  | cons e run ih =>
      rw [List.foldlM_cons] at hrun
      obtain ⟨p₁, hp₁, hrest⟩ := bind_eq_ok hrun
      exact ih (h.step hclear.1 hp₁) (hclear.2 p₁ hp₁) hrest

/-- In every run of requests, departures and replies the queue is what the books have not answered,
every client got the replies the books give it, and the next reply is handled, if no reply comes to a
state where the first request it could be for is not the one it is for. -/
theorem replies_routed {run : List Event} (hclear : Along Proxy.step Proxy.Clear .start run)
    (hrun : run.foldlM Proxy.step .start = .ok p) :
    Kept p (run.foldl Books.step .start) ∧
      ∀ now n l, l.origin ≠ none → ∃ p', p.step (.reply now n l) = .ok p' := by
  have hkept := Kept.start.run hclear hrun
  exact ⟨hkept, fun now n l ho => reply_total hkept.asked ho⟩

/-- A client asks for a version. -/
def askVersion : IrcLine :=
  ⟨none, [str "PRIVMSG", str "bob", ctcpMark :: str "VERSION" ++ [ctcpMark]], .colonUnknown⟩

/-- The version of a client. -/
def tellVersion : IrcLine :=
  ⟨some (str "bob!u@h"), [str "NOTICE", str "me", ctcpMark :: str "VERSION irc" ++ [ctcpMark]],
    .colonUnknown⟩

/-- A client asks and is answered. -/
def askedAndStayed : List Event :=
  [.connect 0 none none, .request 0 askVersion, .reply ⟨0, long_zero⟩ 0 tellVersion]

theorem one_request_routed : ∃ p, askedAndStayed.foldlM Proxy.step .start = .ok p ∧
    Kept p (askedAndStayed.foldl Books.step .start) ∧
    (askedAndStayed.foldl Books.step .start).delivered = [(0, tellVersion)] := by
  refine ⟨_, rfl, (replies_routed ?_ rfl).1, by decide +kernel⟩
  refine ⟨trivial, fun p₁ h₁ => ⟨trivial, fun p₂ h₂ => ⟨?_, fun p₃ h₃ => trivial⟩⟩⟩
  cases h₁
  cases h₂
  intro o command _ ho _ r hr
  cases ho
  cases List.mem_singleton.mp (List.mem_of_find?_eq_some hr)
  exact ⟨by decide, by decide⟩

/-- A client asks and leaves, another one asks the same: the reply is spent on the first. -/
def askedAndLeft : List Event :=
  [.connect 0 none none, .request 0 askVersion, .disconnect 0, .connect 0 none none,
    .request 1 askVersion, .reply ⟨0, long_zero⟩ 0 tellVersion]

theorem departed_takes_reply : ∃ p, askedAndLeft.foldlM Proxy.step .start = .ok p ∧
    p.queue = [⟨1, some (str "bob"), str "VERSION"⟩] ∧
    (askedAndLeft.foldl Books.step .start).delivered = [(1, tellVersion)] ∧
    ¬Kept p (askedAndLeft.foldl Books.step .start) := by
  refine ⟨_, rfl, by decide, by decide +kernel, fun h => ?_⟩
  have hsent := h.sent 1 _ rfl
  revert hsent
  decide +kernel

end

end Ctrlproxy.Ctcp
