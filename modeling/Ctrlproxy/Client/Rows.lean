import Ctrlproxy.Client.Mirror
import Ctrlproxy.Client.Observer
import Ctrlproxy.State.Lookup
import Ctrlproxy.State.Modes

/-!
# Client — how long the lines of a names list are

`client_send_nameslist` fills its 353 lines by `line_len`, which counts the arguments of a line and
nothing of its origin.  The names come out in order, each once (`namesLoop_rows`), but a line that is
filled to the end is longer than 512 characters by the origin, and a name that does not fit behind the
head of a line aborts the program.  `nameslist_iff` says which lists come out right.
-/

namespace Ctrlproxy
open Outcome

/-! ### Rows of names -/

section
variable (origin : Option Str) (target : Str) (ch : ChannelState)

/-- The rows the names are written in behind the row `n :: ns`, which is still filled. -/
def rowsFrom (n : Str) (ns : List Str) : List Str → List (Str × List Str)
  | [] => [(n, ns)]
  | w :: ws =>
      if (lineAddArg (namesLine origin target ch n ns) w).isSome then rowsFrom n (ns ++ [w]) ws
      else (n, ns) :: rowsFrom w [] ws

/-- The rows the names are written in, one for each line. -/
def rowsOf : List Str → List (Str × List Str)
  | [] => []
  | w :: ws => rowsFrom origin target ch w [] ws

/-- The names of a row. -/
def rowNames (row : Str × List Str) : List Str := row.1 :: row.2

/-- The line of a row. -/
def rowLine (row : Str × List Str) : IrcLine := namesLine origin target ch row.1 row.2

/-- The line behind the rows. -/
def endOfNames : IrcLine :=
  vircParseResponse origin target 366 [some ch.name, some (str "End of /NAMES list")]

/-- The lines of a list. -/
def listLines (rows : List (Str × List Str)) : List IrcLine :=
  rows.map (rowLine origin target ch) ++ [endOfNames origin target ch]

theorem rowsFrom_names (n : Str) (ns ws : List Str) :
    (rowsFrom origin target ch n ns ws).flatMap rowNames = n :: (ns ++ ws) := by
  induction ws generalizing n ns with
  | nil => simp [rowsFrom, rowNames]
  | cons w ws ih =>
      rw [rowsFrom]
      split
      · rw [ih]
        simp
      · rw [List.flatMap_cons, ih]
        simp [rowNames]

/-- No name is lost and none is written twice. -/
theorem rowsOf_names (ws : List Str) : (rowsOf origin target ch ws).flatMap rowNames = ws := by
  cases ws with
  | nil => rfl
  | cons w ws => exact rowsFrom_names origin target ch w [] ws

end

/-! ### The length of a line -/

theorem printArgs_length (colon first : Bool) (a : Str) (as : List Str) :
    (printArgs colon first (a :: as)).length =
      ((a :: as).map fun a => a.length + 1).sum - 1 +
        if colon = true ∧ (first = false ∨ as ≠ []) then 1 else 0 := by
  induction as generalizing a first with
  | nil =>
      cases colon <;> cases first <;> simp [printArgs]
  | cons b as ih =>
      rw [printArgs, List.length_append, List.length_cons, ih]
      cases colon <;> simp <;> omega

/-- What is sent of a row is longer than the estimate, by its origin. -/
theorem rowLine_length (origin target : Str) (ch : ChannelState) (row : Str × List Str) :
    (ircLineStringNl (rowLine (some origin) target ch row)).length + 1 =
      lineLen (rowLine (some origin) target ch row) + origin.length := by
  have hargs := printArgs_length false true (str "353")
    ([target, ch.mode.toList, ch.name] ++ (chr ':' :: row.1) :: row.2)
  have hcrlf : (str "\r\n").length = 2 := by decide
  rw [ircLineStringNl, ircLineString, rowLine, namesLine, lineLen]
  simp only [IrcLine.argc, List.cons_append, List.nil_append, List.length_cons, List.length_nil,
    requiresColon, List.length_append, hcrlf, Nat.succ_ne_zero, if_false, Bool.false_eq_true,
    false_and] at hargs ⊢
  simp only [List.map_cons, List.sum_cons] at hargs ⊢
  omega

/-! ### The names of the members -/

/-- A member by its name, behind the prefix of the first mode of the table it has. -/
def memberName (info : NetworkInfo) (src : NetworkState) (m : Ref) : Str :=
  match src.membHeap m with
  | none => []
  | some cn =>
      (((prefixTable info).getD []).find? fun e => flagOf cn.modes e.2).toList.map Prod.fst ++
        (nameOf src cn.globalNick).getD []

/-- A prefix table that the lines of a names list are read by as they are meant. -/
structure PlainPrefixes (info : NetworkInfo) : Prop where
  /-- The colon of the first name is no prefix. -/
  colon : isPrefix (some (chr ':')) (some info) = false
  /-- No prefix stands for `0xFF`. -/
  modes : ∀ e ∈ (prefixTable info).getD [], e.2 ≠ byteFF

/-- A connected client whose state is whole, with what the lines of a names list take from it. -/
structure Hearing (info : NetworkInfo) (origin target : Str) (c : Client) : Prop where
  connected : c.connected = true
  origin : c.defaultOrigin = some origin
  state : ∃ s hm, c.state = some s ∧ Whole s ∧ s.info = info ∧ identityOf s = some (some target, hm)

section
variable {info : NetworkInfo} {origin target : Str} {c : Client} {src : NetworkState} {r : Ref}
  {ch : ChannelState} {m : Ref} {now : Long}

theorem Hearing.defaultTarget (h : Hearing info origin target c) :
    clientGetDefaultTarget c = .ok target := by
  obtain ⟨s, hm, hs, -, -, hid⟩ := h.state
  obtain ⟨me, hme, e⟩ := Option.map_eq_some_iff.mp hid
  rw [clientGetDefaultTarget, hs]
  dsimp only
  rw [NetworkState.nick_eq hme, ok_bind, (Prod.mk.inj e).1]
  rfl

/-- The first prefix of a table whose modes have a place is found. -/
theorem firstPrefix_eq {modes : Modes} {t : List (Byte × Byte)} (h : ∀ e ∈ t, e.2 ≠ byteFF) :
    firstPrefix modes t = .ok ((t.find? fun e => flagOf modes e.2).map Prod.fst) := by
  induction t with
  | nil => rfl
  | cons e t ih =>
      obtain ⟨p, b⟩ := e
      obtain ⟨hb, ht⟩ := List.forall_mem_cons.mp h
      have hslot := modeSlot_ensures (E := fun _ => False) hb
      obtain ⟨i, hi, -⟩ := hslot.exists_ok
      have hflag : flagOf modes b = modes i := by rw [flagOf, hi]
      rw [firstPrefix, hi, ok_bind, List.find?_cons, hflag]
      cases modes i with
      | true => rfl
      | false => exact ih ht

theorem memberArg_eq (h : Hearing info origin target c) (hp : PlainPrefixes info) (hg : Graph src)
    (hnamed : ∀ g, Known src g → ∃ a, nameOf src g = some a) (hr : r ∈ src.channels)
    (hch : src.chanHeap r = some ch) (hm : m ∈ ch.nicks) :
    memberArg src c m = .ok (some (memberName info src m)) := by
  obtain ⟨s, hmask, hs, -, hinfo, -⟩ := h.state
  obtain ⟨cn, gn, hl, -⟩ := hg.link_of_chan hr hch hm
  obtain ⟨a, ha⟩ := hnamed _ hl.known
  have hnick : gn.nick = some a := (nameOf_eq hl.nick).symm.trans ha
  have hprefix : getPrefixFromModes info cn.modes =
      .ok ((((prefixTable info).getD []).find? fun e => flagOf cn.modes e.2).map Prod.fst) := by
    have hmodes := hp.modes
    rw [getPrefixFromModes]
    cases ht : prefixTable info with
    | none => rfl
    | some t =>
        rw [ht] at hmodes
        exact firstPrefix_eq hmodes
  rw [memberArg, NetworkState.memb_eq hl.memb, ok_bind, hs]
  dsimp only
  rw [hinfo, hprefix, ok_bind, NetworkState.nick_eq hl.nick, ok_bind, memberName, hl.memb, hnick]
  dsimp only
  rw [ha]
  cases ((prefixTable info).getD []).find? fun e => flagOf cn.modes e.2 <;> rfl

/-! ### A client that is told the lines -/

/-- A line is told, and the state stays as it has to be. -/
theorem Hearing.send {l : IrcLine} {k : Command} (h : Hearing info origin target c)
    (hk : commandOf l = some k) (h302 : k ≠ .c302)
    (hstep : ∀ s, Whole s → s.info = info → Total (k.handler now s l) fun s' =>
      Whole s' ∧ s'.info = s.info ∧ identityOf s' = identityOf s) :
    ∃ c', clientSendLine now c l = .ok (true, c') ∧ Hearing info origin target c' ∧
      c'.sent = c.sent ++ [(now, l)] := by
  obtain ⟨s, hm, hs, hw, hinfo, hid⟩ := h.state
  obtain ⟨s', hs', hw', hinfo', hid'⟩ := (hstep s hw hinfo).exists_ok
  have hline : strippedLine l = l := by
    rw [strippedLine, if_neg]
    rw [hk]
    exact fun e => h302 (Option.some.inj e)
  rw [clientSendLine_state h.connected hs, stateStep_handler hk, hline]
  dsimp only
  rw [hs']
  exact ⟨_, rfl, ⟨h.connected, h.origin, s', hm, rfl, hw', hinfo'.trans hinfo, hid'.trans hid⟩, rfl⟩

/-- A row is told. -/
theorem Hearing.row (h : Hearing info origin target c) (hp : PlainPrefixes info) (now : Long)
    (ch : ChannelState) (row : Str × List Str) (hword : chr ' ' ∉ row.1) :
    ∃ c', clientSendLine now c (rowLine (some origin) target ch row) = .ok (true, c') ∧
      Hearing info origin target c' ∧
      c'.sent = c.sent ++ [(now, rowLine (some origin) target ch row)] := by
  have hk : commandOf (rowLine (some origin) target ch row) = some .namreply :=
    commandOf_known (n := 4) rfl rfl (by simp)
  refine h.send hk (by decide) fun s hw hinfo => ?_
  -- in memory the line lists its first name, behind a colon
  have hnames : ∀ w, (rowLine (some origin) target ch row).args[4]? = some w →
      ∀ name ∈ gStrsplit w (chr ' '), name = chr ':' :: row.1 := by
    intro w hw name hname
    have hw' : w = chr ':' :: row.1 := (Option.some.inj hw).symm
    have hblank : chr ' ' ∉ chr ':' :: row.1 := by
      rw [List.mem_cons, not_or]
      exact ⟨by decide, hword⟩
    rw [hw', gStrsplit, if_neg (List.cons_ne_nil _ _), pieces_single hblank] at hname
    exact List.mem_singleton.mp hname
  have hsafe : NamesSafe s (rowLine (some origin) target ch row) := by
    intro w hw name hname
    have hhead : isPrefix name.head? (some s.info) = false := by
      rw [hnames w hw name hname, hinfo]
      exact hp.colon
    rw [stripPrefix_of_not hhead, hhead]
  have hFF : ¬NamesFF s (rowLine (some origin) target ch row) := by
    rintro ⟨-, w, hw, name, hname, p, hhead, hmode⟩
    rw [hnames w hw name hname] at hhead
    cases hhead
    rw [getModeByPrefix, hinfo] at hmode
    have htable := hp.modes
    cases ht : prefixTable info with
    | none =>
        rw [ht] at hmode
        cases hmode
    | some t =>
        rw [ht] at hmode htable
        obtain ⟨e, he, hFF⟩ := Option.map_eq_some_iff.mp hmode
        exact htable e (List.mem_of_find?_eq_some he) hFF
  have total := handleNamreply_total hw (commandOf_argc hk) (fun _ => hsafe) hFF
  have edits := handleNamreply_edits (E := fun _ => True) (fun _ _ => trivial) hw.graph
    (l := rowLine (some origin) target ch row) fun _ => trivial
  have identity := handleNamreply_identity hw.graph (rowLine (some origin) target ch row)
  obtain ⟨s', hs', hw'⟩ := total.exists_ok
  exact ensures_of_eq_ok hs' ⟨hw', (edits.of_ok hs').info_eq, identity.of_ok hs'⟩

/-- The end of the list is told. -/
theorem Hearing.endNames (h : Hearing info origin target c) (now : Long) (ch : ChannelState) :
    ∃ c', clientSendLine now c (endOfNames (some origin) target ch) = .ok (true, c') ∧
      Hearing info origin target c' ∧
      c'.sent = c.sent ++ [(now, endOfNames (some origin) target ch)] := by
  have hk : commandOf (endOfNames (some origin) target ch) = some .endNames :=
    commandOf_known (n := 2) rfl rfl (by simp [vaList])
  refine h.send hk (by decide) fun s hw _ => ?_
  obtain ⟨s', hs', hw'⟩ := (handleEndNames_total hw (commandOf_argc hk)).exists_ok
  have e := ((handler_silent hw.graph hk rfl now).of_ok hs').quiets
  exact ensures_of_eq_ok hs' ⟨hw', e.edits.info_eq, e.identity hw.graph⟩

/-! ### The loop -/

/-- What the loop does with names: it writes them in rows, or aborts at one that does not fit. -/
def WritesRows (info : NetworkInfo) (origin target : Str) (ch : ChannelState) (now : Long) (c : Client)
    (names : List Str) (rows : List (Str × List Str)) (x : Except Fault (Bool × Client)) : Prop :=
  (∀ w ∈ names, Fits (some origin) target ch w) ∧
    (∃ c', x = .ok (true, c') ∧ Hearing info origin target c' ∧
      c'.sent = c.sent ++ rows.map fun row => (now, rowLine (some origin) target ch row)) ∨
  (∃ w ∈ names, ¬Fits (some origin) target ch w) ∧ ∃ e, x = .error e

/-- A new line is begun with a name that fits, and with no other. -/
theorem newNamesLine_fits (h : Hearing info origin target c) (ch : ChannelState) (w : Str) :
    Fits (some origin) target ch w ∧
        newNamesLine c ch (some w) = .ok (rowLine (some origin) target ch (w, [])) ∨
      ¬Fits (some origin) target ch w ∧ ∃ e, newNamesLine c ch (some w) = .error e := by
  rw [newNamesLine, h.defaultTarget, ok_bind, h.origin, printS, Option.getD_some, Fits, lineAddArg]
  split
  · exact .inr ⟨fun hfits => hfits rfl, _, rfl⟩
  · exact .inl ⟨Option.some_ne_none _, rfl⟩

/-- A name in front of names that are written. -/
theorem WritesRows.cons {names : List Str} {rows : List (Str × List Str)} {w : Str}
    {x : Except Fault (Bool × Client)} (hw : Fits (some origin) target ch w)
    (h : WritesRows info origin target ch now c names rows x) :
    WritesRows info origin target ch now c (w :: names) rows x := by
  rcases h with ⟨hfits, hx⟩ | ⟨⟨w', hw', hno⟩, hx⟩
  · exact .inl ⟨List.forall_mem_cons.mpr ⟨hw, hfits⟩, hx⟩
  · exact .inr ⟨⟨w', List.mem_cons_of_mem _ hw', hno⟩, hx⟩

/-- The loop, from a line that is being filled on. -/
theorem namesLoop_rowsFrom (hp : PlainPrefixes info) (hg : Graph src)
    (hnamed : ∀ g, Known src g → ∃ a, nameOf src g = some a) (hr : r ∈ src.channels)
    (hch : src.chanHeap r = some ch) (hwords : ∀ m ∈ ch.nicks, chr ' ' ∉ memberName info src m)
    {ms : List Ref}
    (hms : ∀ m ∈ ms, m ∈ ch.nicks) {n : Str} {ns : List Str} (hn : chr ' ' ∉ n)
    (h : Hearing info origin target c) :
    WritesRows info origin target ch now c (ms.map (memberName info src))
      (rowsFrom (some origin) target ch n ns (ms.map (memberName info src)))
      (namesLoop now src ch ms (some (namesLine (some origin) target ch n ns)) c) := by
  induction ms generalizing n ns c with
  | nil =>
      obtain ⟨c', hc', hh, hsent⟩ := h.row hp now ch (n, ns) hn
      exact .inl ⟨nofun, c', hc', hh, hsent⟩
  | cons m ms ih =>
      obtain ⟨hm, hms⟩ := List.forall_mem_cons.mp hms
      have hw := hwords m hm
      rw [namesLoop, memberArg_eq h hp hg hnamed hr hch hm, ok_bind, List.map_cons]
      generalize memberName info src m = w at hw ⊢
      have hadd : addToLine (some (namesLine (some origin) target ch n ns)) (some w) =
          .ok (lineAddArg (namesLine (some origin) target ch n ns) w) := rfl
      rw [hadd, ok_bind, rowsFrom]
      cases hadded : lineAddArg (namesLine (some origin) target ch n ns) w with
      | some l =>
          -- the name fits on the line
          rw [lineAddArg_namesLine hadded]
          exact (ih hms hn h).cons (fits_of_added hadded)
      | none =>
          -- the line is sent and a new one begun
          obtain ⟨c₁, hc₁, hh, hsent⟩ := h.row hp now ch (n, ns) hn
          have hflush : flushLine now c (some (namesLine (some origin) target ch n ns)) =
              .ok (true, c₁) := hc₁
          dsimp only
          rw [hflush, ok_bind]
          rcases newNamesLine_fits hh ch w with ⟨hfits, hnew⟩ | ⟨hno, e, hnew⟩
          · rw [hnew, ok_bind, andThen, if_pos rfl]
            refine WritesRows.cons hfits ?_
            rcases ih hms hw hh with ⟨hall, c', hc', hh', hsent'⟩ | hbad
            · refine .inl ⟨hall, c', hc', hh', ?_⟩
              rw [hsent', hsent]
              simp
            · exact .inr hbad
          · rw [hnew]
            exact .inr ⟨⟨w, List.mem_cons_self, hno⟩, e, rfl⟩

/-- The loop, from its beginning. -/
theorem namesLoop_rows (hp : PlainPrefixes info) (hg : Graph src)
    (hnamed : ∀ g, Known src g → ∃ a, nameOf src g = some a) (hr : r ∈ src.channels)
    (hch : src.chanHeap r = some ch) (hwords : ∀ m ∈ ch.nicks, chr ' ' ∉ memberName info src m)
    (h : Hearing info origin target c) (now : Long) :
    WritesRows info origin target ch now c (ch.nicks.map (memberName info src))
      (rowsOf (some origin) target ch (ch.nicks.map (memberName info src)))
      (namesLoop now src ch ch.nicks none c) := by
  cases hnicks : ch.nicks with
  | nil => exact .inl ⟨nofun, c, rfl, h, by simp [rowsOf]⟩
  | cons m ms =>
      have hmem : ∀ x ∈ m :: ms, x ∈ ch.nicks := fun x hx => hnicks ▸ hx
      obtain ⟨hm, hms⟩ := List.forall_mem_cons.mp hmem
      have hw := hwords m hm
      rw [namesLoop, memberArg_eq h hp hg hnamed hr hch hm, ok_bind, List.map_cons, rowsOf]
      generalize memberName info src m = w at hw ⊢
      rw [addToLine, ok_bind]
      dsimp only
      rw [flushLine, ok_bind]
      rcases newNamesLine_fits h ch w with ⟨hfits, hnew⟩ | ⟨hno, e, hnew⟩
      · rw [hnew, ok_bind, andThen, if_pos rfl]
        exact (namesLoop_rowsFrom hp hg hnamed hr hch hwords hms hw h).cons hfits
      · rw [hnew]
        exact .inr ⟨⟨w, List.mem_cons_self, hno⟩, e, rfl⟩

/-! ### The whole list -/

/-- The list is sent: lines of names that together are the members in order, and the end, none of them
too long. -/
def NamesListed (now : Long) (c : Client) (src : NetworkState) (r : Ref) (origin target : Str)
    (ch : ChannelState) (names : List Str) : Prop :=
  ∃ c' rows, clientSendNameslist now c src r = .ok (true, c') ∧
    c'.sent = c.sent ++ (listLines (some origin) target ch rows).map (fun l => (now, l)) ∧
    rows.flatMap rowNames = names ∧
    ∀ l ∈ listLines (some origin) target ch rows, (ircLineStringNl l).length ≤ IRC_MAXLINELEN

/-- The end of the list is never too long. -/
theorem endOfNames_length (ch : ChannelState) (ho : origin.length ≤ 63) (ht : target.length ≤ 200)
    (hname : ch.name.length ≤ 200) :
    (ircLineStringNl (endOfNames (some origin) target ch)).length ≤ IRC_MAXLINELEN := by
  have hargs := printArgs_length (requiresColon (endOfNames (some origin) target ch)) true (str "366")
    [target, ch.name, str "End of /NAMES list"]
  have hline : (endOfNames (some origin) target ch).args =
      [str "366", target, ch.name, str "End of /NAMES list"] := rfl
  have hcrlf : (str "\r\n").length = 2 := by decide
  have hcode : (str "366").length = 3 := by decide
  have htext : (str "End of /NAMES list").length = 18 := by decide
  rw [ircLineStringNl, ircLineString, IrcLine.argc, hline]
  have horigin : (endOfNames (some origin) target ch).origin = some origin := rfl
  simp only [List.map_cons, List.map_nil, List.sum_cons, List.sum_nil, hcode, htext] at hargs
  simp only [horigin, List.length_cons, List.length_nil, Nat.succ_ne_zero, if_false,
    List.length_append, hcrlf, hargs, IRC_MAXLINELEN]
  split <;> omega

/-- The list of a channel comes out right exactly when every name fits on a line of its own, and no
row is filled so far that the origin makes it too long. -/
theorem nameslist_iff (h : Hearing info origin target c) (hp : PlainPrefixes info) (hg : Graph src)
    (hnamed : ∀ g, Known src g → ∃ a, nameOf src g = some a) (hr : r ∈ src.channels)
    (hch : src.chanHeap r = some ch) (hwords : ∀ m ∈ ch.nicks, chr ' ' ∉ memberName info src m) (ho : origin.length ≤ 63)
    (ht : target.length ≤ 200) (hname : ch.name.length ≤ 200) (now : Long) :
    NamesListed now c src r origin target ch (ch.nicks.map (memberName info src)) ↔
      (∀ w ∈ ch.nicks.map (memberName info src), Fits (some origin) target ch w) ∧
      ∀ row ∈ rowsOf (some origin) target ch (ch.nicks.map (memberName info src)),
        lineLen (rowLine (some origin) target ch row) + origin.length ≤ IRC_MAXLINELEN + 1 := by
  have hend := endOfNames_length ch ho ht hname
  have hrun : clientSendNameslist now c src r = (namesLoop now src ch ch.nicks none c >>= fun x =>
      andThen x fun c =>
        clientSendResponse now c 366 [some ch.name, some (str "End of /NAMES list")]) := by
    rw [clientSendNameslist, NetworkState.chan_eq hch, ok_bind]
  rcases namesLoop_rows hp hg hnamed hr hch hwords h now with
    ⟨hfits, c₁, hc₁, hh, hsent₁⟩ | ⟨⟨w, hw, hno⟩, e, he⟩
  · obtain ⟨c₂, hc₂, -, hsent₂⟩ := hh.endNames now ch
    have hresponse : clientSendResponse now c₁ 366 [some ch.name, some (str "End of /NAMES list")] =
        .ok (true, c₂) := by
      rw [clientSendResponse, if_neg (by decide), hh.defaultTarget, ok_bind, hh.origin]
      exact hc₂
    rw [hc₁, ok_bind, andThen, if_pos rfl, hresponse] at hrun
    have hsent : c₂.sent = c.sent ++ (listLines (some origin) target ch
        (rowsOf (some origin) target ch (ch.nicks.map (memberName info src)))).map
          fun l => (now, l) := by
      rw [hsent₂, hsent₁, listLines]
      simp
    constructor
    · rintro ⟨c', rows, hc', hsent', -, hlength⟩
      refine ⟨hfits, fun row hrow => ?_⟩
      cases hrun.symm.trans hc'
      have hlines := List.append_cancel_left (hsent.symm.trans hsent')
      have hmem : (now, rowLine (some origin) target ch row) ∈
          (listLines (some origin) target ch rows).map fun l => (now, l) := by
        rw [← hlines]
        exact List.mem_map_of_mem (List.mem_append_left _ (List.mem_map_of_mem hrow))
      obtain ⟨l, hl, heq⟩ := List.mem_map.mp hmem
      cases heq
      have hshort := hlength _ hl
      have := rowLine_length origin target ch row
      omega
    · rintro ⟨-, hshort⟩
      refine ⟨c₂, _, hrun, hsent, rowsOf_names _ _ _ _, fun l hl => ?_⟩
      rcases List.mem_append.mp hl with hl | hl
      · obtain ⟨row, hrow, rfl⟩ := List.mem_map.mp hl
        have := hshort row hrow
        have := rowLine_length origin target ch row
        omega
      · rw [List.mem_singleton.mp hl]
        exact hend
  · refine iff_of_false ?_ fun hall => hno (hall.1 w hw)
    rintro ⟨c', rows, hc', -⟩
    rw [hrun, he] at hc'
    cases hc'

end

theorem plainPrefixes_init : PlainPrefixes networkInfoInit where
  colon := by decide
  modes := by
    rw [prefixTable_init]
    decide

/-- A client that was told nothing of the network. -/
def unaware (origin nick : Str) : Client :=
  ⟨true, some origin, some (networkStateInit nick (str "user") (str "host")), []⟩

theorem unaware_hearing (origin nick : Str) :
    Hearing networkInfoInit origin nick (unaware origin nick) where
  connected := rfl
  origin := rfl
  state := ⟨_, _, rfl, networkStateInit_whole _ _ _, rfl, rfl⟩

theorem nameslist_of_two : ∃ s ch, twoJoined = .ok s ∧ s.chanHeap 1 = some ch ∧
    NamesListed long0 (unaware (str "server") (str "me")) s 1 (str "server") (str "me") ch
      (ch.nicks.map (memberName networkInfoInit s)) := by
  have run : twoJoined.map (fun s => (s.channels, (s.chanHeap 1).map fun ch => decide (
      ch.name.length ≤ 200 ∧ (∀ m ∈ ch.nicks, chr ' ' ∉ memberName networkInfoInit s m) ∧
      (∀ w ∈ ch.nicks.map (memberName networkInfoInit s),
        lineAddArg (namesHead (some (str "server")) (str "me") ch) (chr ':' :: w) ≠ none) ∧
      ∀ row ∈ rowsOf (some (str "server")) (str "me") ch
          (ch.nicks.map (memberName networkInfoInit s)),
        lineLen (rowLine (some (str "server")) (str "me") ch row) + (str "server").length ≤
          IRC_MAXLINELEN + 1))) = .ok ([1], some true) := by decide +kernel
  obtain ⟨s, hs, e⟩ := map_eq_ok run
  obtain ⟨hchannels, hch⟩ := Prod.mk.inj e
  obtain ⟨ch, hch, hall⟩ := Option.map_eq_some_iff.mp hch
  obtain ⟨hname, hwords, hfits, hrows⟩ := of_decide_eq_true hall
  have hnamed := twoJoined_named hs
  refine ⟨s, ch, hs, hch, (nameslist_iff (unaware_hearing _ _) plainPrefixes_init hnamed.graph
    hnamed.unique.named ?_ hch hwords (by decide) (by decide) hname long0).mpr ⟨hfits, hrows⟩⟩
  rw [hchannels]
  exact List.mem_cons_self

/-- A long nick, a long channel and a long origin. -/
def longNick : Str := List.replicate 149 (chr 'n')

def longOrigin : Str := List.replicate 63 (chr 'o')

def longJoin : Input :=
  (long0, ⟨some (longNick ++ str "!user@host"), [str "JOIN", chr '#' :: List.replicate 199 (chr 'c')],
    .colonUnknown⟩)

/-- A line filled to 511 characters is sent with 573. -/
theorem origin_overflows : ∃ src ch,
    stateStep (networkStateInit longNick (str "user") (str "host")) longJoin = .ok src ∧
    src.chanHeap 1 = some ch ∧
    ¬NamesListed long0 (unaware longOrigin longNick) src 1 longOrigin longNick ch
      (ch.nicks.map (memberName networkInfoInit src)) := by
  have run : (stateStep (networkStateInit longNick (str "user") (str "host")) longJoin).bind
      (fun src => (clientSendNameslist long0 (unaware longOrigin longNick) src 1).map fun r =>
        ((src.chanHeap 1).isSome, r.2.sent.map fun i => (ircLineStringNl i.2).length)) =
      .ok (true, [573, 441]) := by decide +kernel
  obtain ⟨src, hsrc, hrest⟩ := bind_eq_ok run
  obtain ⟨⟨ret, c'⟩, hc', e⟩ := map_eq_ok hrest
  obtain ⟨hsome, hlengths⟩ := Prod.mk.inj e
  obtain ⟨ch, hch⟩ := Option.isSome_iff_exists.mp hsome
  refine ⟨src, ch, hsrc, hch, ?_⟩
  rintro ⟨c'', rows, hc'', hsent, -, hlength⟩
  cases hc'.symm.trans hc''
  have hlong : 573 ∈ (c'.sent.map fun i => (ircLineStringNl i.2).length) := by
    rw [hlengths]
    exact List.mem_cons_self
  have hnone : (unaware longOrigin longNick).sent = [] := rfl
  rw [hsent, hnone, List.nil_append, List.map_map] at hlong
  obtain ⟨l, hl, hlen⟩ := List.mem_map.mp hlong
  have hshort := hlength l hl
  rw [show (ircLineStringNl l).length = 573 from hlen] at hshort
  exact absurd hshort (by decide)

end Ctrlproxy
