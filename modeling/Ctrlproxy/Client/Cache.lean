import Ctrlproxy.Client.Channel
import Ctrlproxy.Client.Mirror
import Ctrlproxy.State.Totality

/-!
# Client — queries answered from the cache

`src/cache.c`: `client_try_cache` answers MODE, NAMES, TOPIC and WHO from the state of the network,
`net`, or returns `FALSE`, and then the caller forwards the line to the server.

An answer is all or nothing unless a MODE query asks for bans first and for something else behind
them (`GivesUp`): the bans are sent before the other letter is read.
-/

namespace Ctrlproxy
open Outcome

/-! ### Bans -/

/-- The loop of `client_send_banlist`. -/
def sendBans (now : Long) (ch : ChannelState) :
    List NicklistEntry → Client → Except Fault (Bool × Client)
  | [], c => .ok (true, c)
  | be :: bes, c => do
      let x ← clientSendResponse now c 367 [some ch.name, be.hostmask]
      andThen x (sendBans now ch bes)

/-- `client_send_banlist`. -/
def clientSendBanlist (now : Long) (c : Client) (src : NetworkState) (r : Ref) :
    Except Fault (Bool × Client) := do
  let ch ← src.chan r
  let i ← modeSlot (chr 'b')
  let x ← sendBans now ch (ch.chanmodeNicklist i) c
  andThen x fun c => clientSendResponse now c 368 [some ch.name, some (str "End of channel ban list")]

/-! ### Queries -/

/-- The loop of `client_try_cache_mode` over the letters of a query. -/
def answerModes (now : Long) (net : NetworkState) (r : Ref) :
    Str → Client → Except Fault (Bool × Client)
  | [], c => .ok (true, c)
  | m :: w, c =>
      if m = chr 'b' then do
        let (_, c) ← clientSendBanlist now c net r
        answerModes now net r w c
      else .ok (false, c)

/-- `client_try_cache_mode`. -/
def clientTryCacheMode (now : Long) (c : Client) (net : NetworkState) (l : IrcLine) :
    Except Fault (Bool × Client) :=
  if l.argc < 2 then .ok (false, c)
  else do
    let name ← l.argStr 1
    -- only easy queries
    if chr ',' ∈ name then pure (false, c)
    else if l.argc = 3 then
      match ← findChannel net name with
      | none => pure (false, c)
      | some r => do
          let w ← l.argStr 2
          answerModes now net r w c
    else if l.argc = 2 then
      match ← findChannel net name with
      | none => pure (false, c)
      | some r => do
          let ch ← net.chan r
          if ch.modeReceived then do
            let (_, c) ← clientSendChannelMode now c net r
            pure (true, c)
          else pure (false, c)
    else pure (false, c)

/-- `client_try_cache_topic`. -/
def clientTryCacheTopic (now : Long) (c : Client) (net : NetworkState) (l : IrcLine) :
    Except Fault (Bool × Client) :=
  if l.argc < 2 then .ok (false, c)
  else do
    let name ← l.argStr 1
    if chr ',' ∈ name then pure (false, c)
    else do
      let topic ← l.arg 2
      if topic ≠ none then pure (false, c)
      else match ← findChannel net name with
        | none => pure (false, c)
        | some r => do
            let (_, c) ← clientSendTopic now c net r true
            pure (true, c)

/-- Whether what is known of every member is younger than `maxWhoAge`. -/
def whoFresh (now : Long) (maxWhoAge : ℤ) (net : NetworkState) : List Ref → Except Fault Bool
  | [] => .ok true
  | m :: ms => do
      let cn ← net.memb m
      if cn.lastUpdate = long0 then pure false
      else if cn.lastUpdate.1 + maxWhoAge ≤ now.1 then pure false
      else whoFresh now maxWhoAge net ms

/-- The 352 lines for the members of a channel. -/
def sendWho (now : Long) (net : NetworkState) (name : Str) :
    List Ref → Client → Except Fault Client
  | [], c => .ok c
  | m :: ms, c => do
      let cn ← net.memb m
      let nn ← net.nick cn.globalNick
      let info := decimalInt nn.hops ++ chr ' ' :: printS nn.fullname
      let (_, c) ← clientSendResponse now c 352
        [some name, nn.username, nn.hostname, nn.server, nn.nick, cn.lastFlags, some info]
      sendWho now net name ms c

/-- `client_try_cache_who`. -/
def clientTryCacheWho (now : Long) (c : Client) (net : NetworkState) (maxWhoAge : ℤ) (l : IrcLine) :
    Except Fault (Bool × Client) :=
  if l.argc < 2 then .ok (false, c)
  else do
    let name ← l.argStr 1
    if chr ',' ∈ name ∨ chr '*' ∈ name then pure (false, c)
    else if l.argc > 2 then pure (false, c)
    else if maxWhoAge = 0 then pure (false, c)
    else match ← findChannel net name with
      | none => pure (false, c)
      | some r => do
          let ch ← net.chan r
          if ← whoFresh now maxWhoAge net ch.nicks then do
            let c ← sendWho now net name ch.nicks c
            let (_, c) ← clientSendResponse now c 315 [some name, some (str "End of /WHO list.")]
            pure (true, c)
          else pure (false, c)

/-- `client_try_cache_names`. -/
def clientTryCacheNames (now : Long) (c : Client) (net : NetworkState) (l : IrcLine) :
    Except Fault (Bool × Client) :=
  if l.argc < 2 then .ok (false, c)
  else do
    let name ← l.argStr 1
    if chr ',' ∈ name then pure (false, c)
    else if l.argc ≠ 2 then pure (false, c)
    else match ← findChannel net name with
      | none => pure (false, c)
      | some r => do
          let (_, c) ← clientSendNameslist now c net r
          pure (true, c)

/-- `client_try_cache`, with the table `cache_commands` written out; `maxWhoAge` is the one setting
that is read. -/
def clientTryCache (now : Long) (c : Client) (net : NetworkState) (l : IrcLine) (maxWhoAge : ℤ) :
    Except Fault (Bool × Client) :=
  if l.argc = 0 then .ok (true, c)
  else if baseEq l.args[0]? (str "MODE") then clientTryCacheMode now c net l
  else if baseEq l.args[0]? (str "NAMES") then clientTryCacheNames now c net l
  else if baseEq l.args[0]? (str "TOPIC") then clientTryCacheTopic now c net l
  else if baseEq l.args[0]? (str "WHO") then clientTryCacheWho now c net maxWhoAge l
  -- `client_try_cache_userhost` answers nothing
  else if baseEq l.args[0]? (str "USERHOST") then .ok (false, c)
  else .ok (false, c)

/-! ### All or nothing -/

/-- A query is declined without a line to the client. -/
def Untouching (c : Client) (r : Bool × Client) : Prop := r.1 = false → r.2 = c

/-- Nothing is sent, to the client or into its state, unless the query is answered. -/
def Atomic (now : Long) (c : Client) (net : NetworkState) (l : IrcLine) (maxWhoAge : ℤ) : Prop :=
  Ensures (clientTryCache now c net l maxWhoAge) (Untouching c) fun _ => True

/-- A query for the bans of a known channel, and for something else behind them. -/
def GivesUp (net : NetworkState) (l : IrcLine) : Prop :=
  baseEq l.args[0]? (str "MODE") = true ∧ l.argc = 3 ∧
  ∃ name w r, l.args[1]? = some name ∧ l.args[2]? = some w ∧ chr ',' ∉ name ∧
    findChannel net name = .ok (some r) ∧ w.head? = some (chr 'b') ∧ ∃ m ∈ w, m ≠ chr 'b'

section
variable {now : Long} {c c' : Client} {net : NetworkState} {l : IrcLine} {maxWhoAge : ℤ} {r : Ref}

theorem Atomic.declined {x : Bool × Client} (h : Atomic now c net l maxWhoAge)
    (hx : clientTryCache now c net l maxWhoAge = .ok x) (hret : x.1 = false) : x.2 = c :=
  Ensures.of_ok h hx hret

/-- What is declined from the start. -/
theorem untouching_declined : Untouching c (false, c) := fun _ => rfl

/-- What is answered. -/
theorem untouching_answered : Untouching c (true, c') := nofun

/-- A query for bans alone is answered. -/
theorem answerModes_bans {w : Str} (hw : ∀ m ∈ w, m = chr 'b') :
    Ensures (answerModes now net r w c) (fun x => x.1 = true) fun _ => True := by
  induction w generalizing c with
  | nil => rfl
  | cons m w ih =>
      rw [answerModes, if_pos (hw m List.mem_cons_self)]
      refine Ensures.bind (Q := fun _ => True) ?_ fun x _ => ?_
      · cases clientSendBanlist now c net r <;> trivial
      · exact ih fun m hm => hw m (List.mem_cons_of_mem _ hm)

/-- The answer to a query for modes is all or nothing, unless it starts with the bans and goes on. -/
theorem answerModes_untouching {w : Str}
    (hw : ¬ (w.head? = some (chr 'b') ∧ ∃ m ∈ w, m ≠ chr 'b')) :
    Ensures (answerModes now net r w c) (Untouching c) fun _ => True := by
  cases w with
  | nil => exact untouching_answered
  | cons m w =>
      by_cases hm : m = chr 'b'
      · have all : ∀ m' ∈ m :: w, m' = chr 'b' := by
          intro m' hm'
          by_contra hne
          exact hw ⟨congrArg some hm, m', hm', hne⟩
        refine (answerModes_bans all).imp fun x hx hf => ?_
        rw [hx] at hf
        cases hf
      · rw [answerModes, if_neg hm]
        exact untouching_declined

/-- An answer whose sender is run to its end is an answer. -/
theorem answered_untouching {x : Except Fault (Bool × Client)} :
    Ensures (x >>= fun y => pure (true, y.2)) (Untouching c) fun _ => True := by
  refine Ensures.bind (Q := fun _ => True) ?_ fun y _ => untouching_answered
  cases x <;> trivial

/-- The rest of a query that named a channel. -/
theorem untouching_channel {name : Str} {f : Ref → Except Fault (Bool × Client)}
    (hf : ∀ r, findChannel net name = .ok (some r) →
      Ensures (f r) (Untouching c) fun _ => True) :
    Ensures (findChannel net name >>= fun o => match o with
      | none => pure (false, c)
      | some r => f r) (Untouching c) fun _ => True := by
  cases h : findChannel net name with
  | error e => trivial
  | ok o =>
      cases o with
      | none => exact untouching_declined
      | some r => exact hf r h

theorem clientTryCacheMode_untouching (hmode : baseEq l.args[0]? (str "MODE") = true)
    (hg : ¬ GivesUp net l) :
    Ensures (clientTryCacheMode now c net l) (Untouching c) fun _ => True := by
  unfold clientTryCacheMode
  split
  · exact untouching_declined
  refine (IrcLine.argStr_ensures (fun _ _ => trivial) 1).bind fun name hname => ?_
  split
  · exact untouching_declined
  next hcomma =>
  split
  · next hargc =>
    refine untouching_channel fun r hr => ?_
    refine (IrcLine.argStr_ensures (fun _ _ => trivial) 2).bind fun w hw => ?_
    refine answerModes_untouching fun hgive => hg ⟨hmode, hargc, name, w, r, hname, hw, hcomma, hr, hgive⟩
  · split
    · refine untouching_channel fun r _ => ?_
      refine (NetworkState.chan_ensures (fun _ _ => trivial) r).bind fun ch _ => ?_
      split
      · exact answered_untouching
      · exact untouching_declined
    · exact untouching_declined

theorem clientTryCacheTopic_untouching :
    Ensures (clientTryCacheTopic now c net l) (Untouching c) fun _ => True := by
  unfold clientTryCacheTopic
  split
  · exact untouching_declined
  refine (IrcLine.argStr_ensures (fun _ _ => trivial) 1).bind fun name _ => ?_
  split
  · exact untouching_declined
  refine (IrcLine.arg_ensures (fun _ _ => trivial) 2).bind fun topic _ => ?_
  split
  · exact untouching_declined
  · exact untouching_channel fun r _ => answered_untouching

theorem clientTryCacheNames_untouching :
    Ensures (clientTryCacheNames now c net l) (Untouching c) fun _ => True := by
  unfold clientTryCacheNames
  split
  · exact untouching_declined
  refine (IrcLine.argStr_ensures (fun _ _ => trivial) 1).bind fun name _ => ?_
  split
  · exact untouching_declined
  split
  · exact untouching_declined
  · exact untouching_channel fun r _ => answered_untouching

/-- A WHO query is answered for all members or for none. -/
theorem clientTryCacheWho_untouching :
    Ensures (clientTryCacheWho now c net maxWhoAge l) (Untouching c) fun _ => True := by
  unfold clientTryCacheWho
  split
  · exact untouching_declined
  refine (IrcLine.argStr_ensures (fun _ _ => trivial) 1).bind fun name _ => ?_
  split
  · exact untouching_declined
  split
  · exact untouching_declined
  split
  · exact untouching_declined
  refine untouching_channel fun r _ => ?_
  refine (NetworkState.chan_ensures (fun _ _ => trivial) r).bind fun ch _ => ?_
  refine Ensures.bind (Q := fun _ => True) ?_ fun fresh _ => ?_
  · cases whoFresh now maxWhoAge net ch.nicks <;> trivial
  split
  · refine Ensures.bind (Q := fun _ => True) ?_ fun c' _ => answered_untouching
    cases sendWho now net name ch.nicks c <;> trivial
  · exact untouching_declined

theorem clientTryCache_untouching (hg : ¬ GivesUp net l) : Atomic now c net l maxWhoAge := by
  unfold Atomic clientTryCache
  split
  · exact untouching_answered
  split
  · next hmode => exact clientTryCacheMode_untouching hmode hg
  split
  · exact clientTryCacheNames_untouching
  split
  · exact clientTryCacheTopic_untouching
  split
  · exact clientTryCacheWho_untouching
  · split <;> exact untouching_declined

end

/-! ### Declined behind the bans -/

/-- A connected client, whose state, if it has one, is whole. -/
structure Attended (c : Client) : Prop where
  connected : c.connected = true
  state : ∀ s ∈ c.state, Whole s

section
variable {now : Long} {c c' : Client} {net : NetworkState} {l : IrcLine} {maxWhoAge : ℤ} {r : Ref}

/-- The lines a client was sent, without the nick they are addressed to. -/
def Client.told (c : Client) : List (List Str) := c.sent.map fun i => i.2.args.eraseIdx 1

/-- The client was told `rows`, and nothing else. -/
def ToldRows (c : Client) (rows : List (List Str)) (c' : Client) : Prop :=
  Attended c' ∧ c'.told = c.told ++ rows

theorem ToldRows.refl (h : Attended c) : ToldRows c [] c := ⟨h, (List.append_nil _).symm⟩

theorem ToldRows.trans {c'' : Client} {rows rows' : List (List Str)} (h : ToldRows c rows c')
    (h' : ToldRows c' rows' c'') : ToldRows c (rows ++ rows') c'' :=
  ⟨h'.1, by rw [h'.2, h.2, List.append_assoc]⟩

/-- The client was told something. -/
def HeardMore (c : Client) (c' : Client) : Prop := Attended c' ∧ c.told.length < c'.told.length

theorem ToldRows.heard {rows : List (List Str)} (h : ToldRows c rows c') (hne : rows ≠ []) : HeardMore c c' := by
  refine ⟨h.1, ?_⟩
  rw [h.2, List.length_append]
  have := List.length_pos_iff.mpr hne
  omega

theorem Attended.sendLine (h : Attended c) (h302 : commandOf l ≠ some .c302)
    (hl : ∀ s, Whole s → Total (stateStep s (now, l)) Whole) :
    Total (clientSendLine now c l) (fun x => x.1 = true ∧ ToldRows c [l.args.eraseIdx 1] x.2) := by
  have told : ∀ c' : Client, c'.sent = c.sent ++ [(now, l)] →
      c'.told = c.told ++ [l.args.eraseIdx 1] := by
    intro c' hc'
    rw [Client.told, hc', List.map_append]
    rfl
  cases hs : c.state with
  | none =>
      rw [clientSendLine, if_neg (by simp [h.connected]), hs]
      exact ⟨rfl, ⟨h.connected, fun s hs' => absurd hs' (Option.not_mem_none s)⟩, told _ rfl⟩
  | some s =>
      rw [clientSendLine_state h.connected hs, strippedLine, if_neg h302]
      obtain ⟨s', hs', hw⟩ := (hl s (h.state s hs)).exists_ok
      rw [hs']
      exact ⟨rfl, ⟨h.connected, fun s hs => by cases hs; exact hw⟩, told _ rfl⟩

/-- A client can be addressed. -/
theorem Attended.target (h : Attended c) : Total (clientGetDefaultTarget c) fun _ => True := by
  unfold clientGetDefaultTarget
  cases hs : c.state with
  | none => trivial
  | some s =>
      obtain ⟨me, hme, -⟩ := (h.state s hs).graph.nick_live meRef (.inl rfl)
      dsimp only
      rw [NetworkState.nick_eq hme]
      trivial

/-- A line with two arguments is sent that the handler of its number accepts. -/
theorem Attended.sendRow (h : Attended c) {code n : ℕ} {w : Str} {k : Command} {name arg : Str}
    (hcode : code ≠ 0)
    (hk : (ircCommands.find? fun e => baseEq (some (responseStr code)) e.1) = some (w, n, k))
    (hn : n ≤ 3) (h302 : k ≠ .c302)
    (hhandler : ∀ s l, Whole s → 3 < l.argc → Total (k.handler now s l) Whole) :
    Total (clientSendResponse now c code [some name, some arg])
      (fun x => x.1 = true ∧ ToldRows c [[responseStr code, name, arg]] x.2) := by
  rw [clientSendResponse, if_neg hcode]
  refine h.target.bind fun target _ => ?_
  have hc : commandOf (vircParseResponse c.defaultOrigin target code [some name, some arg]) =
      some k := commandOf_known rfl hk (by simpa [vaList] using hn)
  refine h.sendLine (by simpa [hc] using h302) fun s hs => ?_
  rw [stateStep_handler hc]
  exact hhandler s _ hs (by simp [IrcLine.argc, vircParseResponse, vaList])

/-- A line about the masks of a channel is sent. -/
theorem Attended.sendMasks (h : Attended c) {code : ℕ} {w : Str} {k : Command} {name mask : Str}
    (hcode : code ≠ 0)
    (hk : (ircCommands.find? fun e => baseEq (some (responseStr code)) e.1) = some (w, 2, k))
    (hk' : k = .banlistEntry ∨ k = .endBanlist) :
    Total (clientSendResponse now c code [some name, some mask])
      (fun x => x.1 = true ∧ ToldRows c [[responseStr code, name, mask]] x.2) := by
  rcases hk' with rfl | rfl
  · exact h.sendRow hcode hk (by decide) (by decide) fun s l hs hargc =>
      handleMaskEntry_total hs .banlist (Nat.lt_of_succ_lt hargc) fun _ => hargc
  · exact h.sendRow hcode hk (by decide) (by decide) fun s l hs hargc =>
      handleEndMasks_total hs .banlist (Nat.lt_of_succ_lt hargc)

theorem banlistEntry_row : (ircCommands.find? fun e => baseEq (some (responseStr 367)) e.1) =
    some (str "367", 2, .banlistEntry) := by decide

theorem endBanlist_row : (ircCommands.find? fun e => baseEq (some (responseStr 368)) e.1) =
    some (str "368", 2, .endBanlist) := by decide

theorem HeardMore.trans {c'' : Client} (h : HeardMore c c') (h' : HeardMore c' c'') : HeardMore c c'' :=
  ⟨h'.1, h.2.trans h'.2⟩

/-- The 367 line about a ban. -/
def banRow (name mask : Str) : List Str := [responseStr 367, name, mask]

/-- The 368 line. -/
def endOfBansRow (name : Str) : List Str := [responseStr 368, name, str "End of channel ban list"]

theorem Attended.sendBans {ch : ChannelState} {bes : List NicklistEntry} {bans : List Str}
    (h : Attended c) (hbes : bes.map (·.hostmask) = bans.map some) :
    Total (sendBans now ch bes c)
      (fun x => x.1 = true ∧ ToldRows c (bans.map (banRow ch.name)) x.2) := by
  induction bes generalizing bans c with
  | nil =>
      have none : bans = [] := by simpa using hbes.symm
      subst none
      exact ⟨rfl, .refl h⟩
  | cons be bes ih =>
      obtain _ | ⟨mask, bans⟩ := bans
      · cases hbes
      obtain ⟨hmask, hrest⟩ := List.cons.inj hbes
      have hmask' : be.hostmask = some mask := hmask
      rw [Ctrlproxy.sendBans, hmask']
      refine (h.sendMasks (by decide) banlistEntry_row (.inl rfl)).bind ?_
      rintro ⟨_, c₁⟩ ⟨rfl, h₁⟩
      refine (ih h₁.1 hrest).imp ?_
      rintro ⟨_, c₂⟩ ⟨rfl, h₂⟩
      exact ⟨rfl, h₁.trans h₂⟩

theorem exists_banSlot : ∃ i, modeSlot (chr 'b') = .ok i := ⟨⟨(chr 'b').1, by decide⟩, rfl⟩

/-- The bans of a channel are sent, and the end of the list. -/
theorem Attended.sendBanlist (h : Attended c) {ch : ChannelState} {bans : List Str}
    (hch : net.chanHeap r = some ch)
    (hbans : ∀ i, modeSlot (chr 'b') = .ok i →
      (ch.chanmodeNicklist i).map (·.hostmask) = bans.map some) :
    Total (clientSendBanlist now c net r)
      (fun x => ToldRows c (bans.map (banRow ch.name) ++ [endOfBansRow ch.name]) x.2) := by
  rw [clientSendBanlist, NetworkState.chan_eq hch, ok_bind]
  obtain ⟨i, hi⟩ := exists_banSlot
  rw [hi, ok_bind]
  refine (h.sendBans (hbans i hi)).bind ?_
  rintro ⟨_, c₁⟩ ⟨rfl, h₁⟩
  refine (h₁.1.sendMasks (by decide) endBanlist_row (.inr rfl)).imp ?_
  rintro ⟨_, c₂⟩ ⟨rfl, h₂⟩
  exact h₁.trans h₂

/-- The bans of a channel are sent, whatever they are. -/
theorem Attended.heardBanlist (h : Attended c) (hn : Whole net) {ch : ChannelState}
    (hch : net.chanHeap r = some ch) :
    Total (clientSendBanlist now c net r) (fun x => HeardMore c x.2) := by
  have masks : ∀ bes : List NicklistEntry, (∀ be ∈ bes, be.hostmask ≠ none) →
      ∃ bans : List Str, bes.map (·.hostmask) = bans.map some := by
    intro bes hbes
    refine ⟨bes.map fun be => be.hostmask.getD [], ?_⟩
    rw [List.map_map]
    refine List.map_congr_left fun be hbe => ?_
    obtain ⟨mask, hmask⟩ := Option.ne_none_iff_exists'.mp (hbes be hbe)
    simp only [Function.comp_apply, hmask, Option.getD_some]
  obtain ⟨i, hi⟩ := exists_banSlot
  obtain ⟨bans, hbans⟩ := masks _ (hn.masks r ch hch i)
  have list : ∀ j, modeSlot (chr 'b') = .ok j →
      (ch.chanmodeNicklist j).map (·.hostmask) = bans.map some := by
    intro j hj
    cases hi.symm.trans hj
    exact hbans
  exact (h.sendBanlist hch list).imp fun x hx => hx.heard (by simp)

/-- The letters of a query are answered up to the first that is not `b`. -/
theorem Attended.answerModes (h : Attended c) (hn : Whole net) {ch : ChannelState}
    (hch : net.chanHeap r = some ch) {w : Str} (hw : ∃ m ∈ w, m ≠ chr 'b') :
    Total (answerModes now net r w c) (fun x => x.1 = false ∧ (x.2 = c ∨ HeardMore c x.2)) := by
  induction w generalizing c with
  | nil =>
      obtain ⟨m, hm, -⟩ := hw
      cases hm
  | cons m w ih =>
      rw [Ctrlproxy.answerModes]
      split
      · next hm =>
        have hw' : ∃ m ∈ w, m ≠ chr 'b' := by
          obtain ⟨m', hm', hne⟩ := hw
          rcases List.mem_cons.mp hm' with rfl | hm'
          · exact absurd hm hne
          · exact ⟨m', hm', hne⟩
        refine (h.heardBanlist hn hch).bind ?_
        rintro ⟨b, c₁⟩ h₁
        refine (ih h₁.1 hw').imp ?_
        rintro ⟨_, c₂⟩ ⟨rfl, h₂⟩
        refine ⟨rfl, .inr ?_⟩
        rcases h₂ with rfl | h₂
        · exact h₁
        · exact h₁.trans h₂
      · exact ⟨rfl, .inl rfl⟩

/-- The client is sent bans, and the query goes to the server as well. -/
theorem not_atomic_of_givesUp (h : Attended c) (hn : Whole net) (hg : GivesUp net l) :
    ¬ Atomic now c net l maxWhoAge := by
  obtain ⟨hmode, hargc, name, w, r, hname, hw, hcomma, hr, hhead, hother⟩ := hg
  obtain ⟨ch, hch, -⟩ := hn.graph.chan_live r ((findChannel_total hn.graph name).of_ok hr r rfl)
  obtain ⟨_, w, rfl⟩ : ∃ m w', w = m :: w' := by
    cases w with
    | nil => cases hhead
    | cons m w => exact ⟨m, w, rfl⟩
  cases hhead
  have hother' : ∃ m ∈ w, m ≠ chr 'b' := by
    obtain ⟨m, hm, hne⟩ := hother
    rcases List.mem_cons.mp hm with rfl | hm
    · exact absurd rfl hne
    · exact ⟨m, hm, hne⟩
  have hargs : l.argStr 1 = .ok name ∧ l.argStr 2 = .ok (chr 'b' :: w) := by
    rw [IrcLine.argStr, IrcLine.argStr, hname, hw, if_pos (by omega), if_pos (by omega)]
    exact ⟨rfl, rfl⟩
  have answer : clientTryCache now c net l maxWhoAge = answerModes now net r (chr 'b' :: w) c := by
    rw [clientTryCache, if_neg (by omega), if_pos hmode, clientTryCacheMode, if_neg (by omega),
      hargs.1, ok_bind, if_neg hcomma, if_pos hargc, hr, ok_bind]
    dsimp only
    rw [hargs.2, ok_bind]
  have sent : Total (answerModes now net r (chr 'b' :: w) c)
      (fun x => x.1 = false ∧ HeardMore c x.2) := by
    rw [answerModes, if_pos rfl]
    refine (h.heardBanlist hn hch).bind ?_
    rintro ⟨b, c₁⟩ h₁
    refine (h₁.1.answerModes hn hch hother').imp ?_
    rintro ⟨_, c₂⟩ ⟨rfl, h₂⟩
    rcases h₂ with rfl | h₂
    · exact ⟨rfl, h₁⟩
    · exact ⟨rfl, h₁.trans h₂⟩
  obtain ⟨x, hx, hfalse, hheard⟩ := sent.exists_ok
  intro hatomic
  have hsame := hatomic.declined (answer.trans hx) hfalse
  rw [hsame] at hheard
  exact lt_irrefl _ hheard.2

/-- **Answers are all or nothing, but for a query for bans and more.** For every client, network
state, line and setting, a query that is declined has sent nothing and changed nothing, unless it
asks for the bans of a known channel and for something else behind them.  Then, whatever states the
proxy keeps of a connected client and its network, bans were sent before the query is declined. -/
theorem clientTryCache_atomic (now : Long) (c : Client) (net : NetworkState) (l : IrcLine)
    (maxWhoAge : ℤ) : (¬ GivesUp net l → Atomic now c net l maxWhoAge) ∧
      (Attended c ∧ Whole net → (Atomic now c net l maxWhoAge ↔ ¬ GivesUp net l)) :=
  ⟨clientTryCache_untouching, fun h =>
    ⟨fun ha hg => not_atomic_of_givesUp h.1 h.2 hg ha, clientTryCache_untouching⟩⟩

end

/-- A query that is declined after a line was sent. -/
theorem not_atomic_of_sent {now : Long} {c : Client} {net : NetworkState} {l : IrcLine}
    {maxWhoAge : ℤ} {x : List Str} (hc : c.sent = [])
    (run : (clientTryCache now c net l maxWhoAge).map (fun r => (r.1, r.2.sent.map (·.2.args))) =
      .ok (false, [x])) : ¬ Atomic now c net l maxWhoAge := by
  intro hatomic
  obtain ⟨r, hr, hfacts⟩ := map_eq_ok run
  simp only [Prod.mk.injEq] at hfacts
  have hsame := hatomic.declined hr hfacts.1
  have hquiet : r.2.sent = [] := by rw [hsame, hc]
  rw [hquiet] at hfacts
  exact nomatch hfacts.2

/-- A query for bans and invitations: the client gets the end of the ban list and the query is
declined. -/
theorem bans_sent_and_declined :
    (clientTryCache long0 (Client.quiet true (some (str "net")) freshUser) aloneOnChannel
      (inputOf "MODE #c bI").2 0).map (fun r => (r.1, r.2.sent.map (·.2.args))) =
        .ok (false, [[str "368", str "me", str "#c", str "End of channel ban list"]]) ∧
    ¬ Atomic long0 (Client.quiet true (some (str "net")) freshUser) aloneOnChannel
      (inputOf "MODE #c bI").2 0 := by
  have run : (clientTryCache long0 (Client.quiet true (some (str "net")) freshUser) aloneOnChannel
      (inputOf "MODE #c bI").2 0).map (fun r => (r.1, r.2.sent.map (·.2.args))) =
        .ok (false, [[str "368", str "me", str "#c", str "End of channel ban list"]]) := by
    decide +kernel
  exact ⟨run, not_atomic_of_sent rfl run⟩

end Ctrlproxy
