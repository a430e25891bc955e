import Ctrlproxy.Client.Channel
import Ctrlproxy.Linestack.Replay
import Ctrlproxy.Proxy.Pipeline

/-!
# Proxy — sending a backlog

The functions of `libirc/linestack.c` that send the lines of a log to a client, and `check_highlight`
of `src/repl_backends.c`.  They are traversals whose handler talks to a client (`SendFn`).

A client that is connected takes every line, so a traversal goes on to its end, and the client is
sent what the handler makes of the lines since the marker (`traverseSending_sends`).  `clock` is the
time of day as `strftime` writes it.
-/

namespace Ctrlproxy
open Outcome

/-! ### Handlers -/

/-- A `linestack_traverse_fn` that talks to a client. -/
abbrev SendFn := IrcLine → Long → Client → Except Fault (Bool × Client)

/-- It is called until it faults, which ends the program. -/
def SendFn.handler (f : SendFn) : TraverseFn (Except Fault Client) := fun l t x =>
  match l, x with
  | some l, .ok c => match f l t c with
      | .ok (ret, c) => (ret, .ok c)
      | .error e => (false, .error e)
  | none, .ok _ => (false, .error .null)
  | _, .error e => (false, .error e)

/-- `linestack_traverse` with such a handler. -/
def traverseSending (read : LineReader) (nd : LinestackContext) (mf mt : Option ℕ) (f : SendFn)
    (c : Client) : Except Fault (Bool × LinestackContext × Client) := do
  let (ret, nd, x) ← linestackTraverse read nd mf mt f.handler (.ok c)
  let c ← x
  pure (ret, nd, c)

section
variable (clock : ℤ → Str) (now : Long) (timeOffset : ℤ)

/-- `send_line`. -/
def sendLine : SendFn := fun l _ c => clientSendLine now c l

/-- `send_line_timed`. -/
def sendLineTimed : SendFn := fun l t c => do
  let l ← if IsMessage l ∧ 2 < l.argc then linePrefixTime (clock (t.1 + timeOffset)) l else .ok l
  clientSendLine now c l

/-- `send_line_timed_dataonly`. -/
def sendLineTimedDataonly : SendFn := fun l t c =>
  if ¬ IsMessage l then .ok (true, c)
  else if l.argc ≤ 2 then .ok (true, c)
  else do
    let l ← linePrefixTime (clock (t.1 + timeOffset)) l
    clientSendLine now c l

/-- `send_line_dataonly`. -/
def sendLineDataonly : SendFn := fun l _ c =>
  if ¬ IsMessage l then .ok (true, c)
  else if l.argc ≤ 2 then .ok (true, c)
  else clientSendLine now c l

/-- The handler that `linestack_send` and `linestack_send_object` choose. -/
def travFn (dataonly timed : Bool) : SendFn :=
  if dataonly then
    if timed then sendLineTimedDataonly clock now timeOffset else sendLineDataonly now
  else if timed then sendLineTimed clock now timeOffset
  else sendLine now

/-- `traverse_object_handler`. -/
def traverseObjectHandler (object : Str) (handler : SendFn) : SendFn := fun l t c =>
  match l.args[1]? with
  | none => .ok (true, c)
  | some names =>
      if chr ',' ∉ names then if names = object then handler l t c else .ok (true, c)
      else if object ∈ gStrsplit names (chr ',') then handler l t c
      else .ok (true, c)

/-- `check_highlight`, with the strings of the setting `match`. -/
def checkHighlight (patterns : List Str) : SendFn := fun l _ c =>
  if ¬ IsMessage l then .ok (true, c)
  else if patterns = [] then .ok (true, c)
  else do
    -- `strstr` reads a text that need not be there
    let text ← l.argStr 2
    if ∃ w ∈ patterns, w <:+: text then clientSendLine now c l else pure (true, c)

/-- `linestack_send`. -/
def linestackSend (read : LineReader) (ctx : LinestackContext) (mf mt : Option ℕ) (c : Client)
    (dataonly timed : Bool) : Except Fault (Bool × LinestackContext × Client) :=
  traverseSending read ctx mf mt (travFn clock now timeOffset dataonly timed) c

/-- `linestack_send_object`. -/
def linestackSendObject (read : LineReader) (ctx : LinestackContext) (obj : Str) (mf mt : Option ℕ)
    (c : Client) (dataonly timed : Bool) : Except Fault (Bool × LinestackContext × Client) :=
  traverseSending read ctx mf mt
    (traverseObjectHandler obj (travFn clock now timeOffset dataonly timed)) c

end

/-! ### Traversals of a log -/

/-- What a handler that talks to a client makes of lines, up to the one it stops at. -/
def SendFn.run (f : SendFn) : Client → List (IrcLine × Long) → Except Fault (Bool × Client)
  | c, [] => .ok (true, c)
  | c, (l, t) :: ls => do
      let (ret, c) ← f l t c
      if ret then SendFn.run f c ls else pure (false, c)

/-- The lines since a marker. -/
def sinceMarker (lines : List (IrcLine × Long)) (m : Option ℕ) : List (IrcLine × Long) :=
  lines.drop (m.getD 0)

section
variable {read : LineReader} {nd nd' : LinestackContext} {log : List Entry} {f : SendFn}

theorem rangeOf_none (lines : List (IrcLine × Long)) (mf : Option ℕ) :
    rangeOf lines mf none = sinceMarker lines mf := by
  rw [rangeOf, sinceMarker, Option.getD_none, ← List.length_drop, List.take_length]

/-- A traversal that returns has moved the files. -/
theorem linestackTraverse_moved {H : Type} {handler : TraverseFn H} {mf mt : Option ℕ} {u u' : H}
    {ret : Bool} {nd'' : LinestackContext} (hm : Moved nd nd')
    (h : linestackTraverse read nd' mf mt handler u = .ok (ret, nd'', u')) : Moved nd nd'' := by
  obtain ⟨⟨ret', nd₁, u₁⟩, hloop, h⟩ := bind_eq_ok h
  cases h
  obtain ⟨lines, index, states, count, last⟩ := traverseLoop_ok_moved hm hloop
  exact ⟨lines, index, states, count, last⟩

theorem stateIndexOf_moved {m i : Option ℕ} (h : stateIndexOf nd m = .ok (i, nd')) :
    Moved nd nd' := by
  cases m with
  | none =>
      cases h
      exact .refl nd
  | some m =>
      rw [stateIndexOf] at h
      dsimp only at h
      split at h
      · cases h
        exact .refl nd
      split at h
      · cases h
        exact ⟨rfl, File.seek_data _ _, rfl, rfl, rfl⟩
      · obtain ⟨⟨v, index⟩, hv, h⟩ := bind_eq_ok h
        cases h
        have hdata : index.data = nd.indexFile.data := by
          rw [readNumber_data hv, File.seek_data]
        exact ⟨rfl, hdata, rfl, rfl, rfl⟩

/-- Asking for a state, at whatever marker, has moved the files. -/
theorem linestackGetState_moved {junk : Junk} {now : Long} {m : Option ℕ} {ns : Option NetworkState}
    (h : linestackGetState read junk now nd m = .ok (ns, nd')) : Moved nd nd' := by
  obtain ⟨⟨i, nd₁⟩, hi, hget⟩ := bind_eq_ok h
  have hm := stateIndexOf_moved hi
  dsimp only at hget
  split at hget
  · cases hget
    exact hm
  split at hget
  · cases hget
    exact hm
  obtain ⟨⟨ok, rest, ret⟩, -, hpulled⟩ := bind_eq_ok hget
  dsimp only at hpulled
  split at hpulled
  · cases hpulled
    exact hm
  obtain ⟨⟨ok', nd₂, ret'⟩, hreplay, hreplayed⟩ := bind_eq_ok hpulled
  obtain ⟨⟨ok₁, nd₃, st₁⟩, htraverse, hend⟩ := bind_eq_ok hreplay
  obtain ⟨st₂, -, hst⟩ := bind_eq_ok hend
  cases hst
  have hm' := linestackTraverse_moved hm htraverse
  dsimp only at hreplayed
  split at hreplayed
  · cases hreplayed
    exact hm'
  obtain ⟨me, -, hme⟩ := bind_eq_ok hreplayed
  split at hme
  · cases hme
  · cases hme
    exact hm'

theorem SendFn.handler_ok (f : SendFn) {l : IrcLine} {t : Long} {c : Client} {r : Bool × Client}
    (h : f l t c = .ok r) : f.handler (some l) t (.ok c) = (r.1, .ok r.2) := by
  rw [SendFn.handler, h]

theorem SendFn.handler_error (f : SendFn) {l : IrcLine} {t : Long} {c : Client} {e : Fault}
    (h : f l t c = .error e) : f.handler (some l) t (.ok c) = (false, .error e) := by
  rw [SendFn.handler, h]

/-- A handler that talks to a client is stopped by a fault. -/
theorem SendFn.handWhile_handler (f : SendFn) (c : Client) (ls : List (IrcLine × Long)) :
    (handWhile f.handler (.ok c) ls).2 = (f.run c ls).map Prod.snd ∧
      ∀ r, f.run c ls = .ok r → (handWhile f.handler (.ok c) ls).1 = r.1 := by
  induction ls generalizing c with
  | nil => exact ⟨rfl, fun r hr => by cases hr; rfl⟩
  | cons l ls ih =>
      obtain ⟨l, t⟩ := l
      rw [handWhile, SendFn.run]
      cases hcall : f l t c with
      | error e =>
          rw [f.handler_error hcall, error_bind]
          exact ⟨rfl, fun r hr => by cases hr⟩
      | ok r =>
          obtain ⟨ret, c'⟩ := r
          rw [f.handler_ok hcall]
          rw [ok_bind]
          dsimp only
          cases ret with
          | false => exact ⟨rfl, fun r hr => by cases hr; rfl⟩
          | true =>
              rw [if_pos rfl, if_pos rfl]
              exact ih c'

/-- Sending the lines since a marker. -/
theorem traverseSending_eq (hread : ReadsCrLf read) (h : Holds nd log) (hm : Moved nd nd')
    (mf : Option ℕ) (c : Client) : traverseSending read nd' mf none f c =
      (f.run c (sinceMarker (log.map Entry.dated) mf)).map fun r => (r.1, nd, r.2) := by
  obtain ⟨hclient, hret⟩ := f.handWhile_handler c (sinceMarker (log.map Entry.dated) mf)
  rw [traverseSending, linestackTraverse_while f.handler hread h hm mf (fun _ hm => by cases hm),
    rangeOf_none, ok_bind]
  dsimp only
  rw [hclient]
  cases hrun : f.run c (sinceMarker (log.map Entry.dated) mf) with
  | error e => rfl
  | ok r => rw [hret r hrun]; rfl

end

/-! ### What a client is sent -/

/-- A client that takes lines. -/
structure Client.Attached (c : Client) : Prop where
  connected : c.connected = true
  state : c.state ≠ none

/-- A line that a log may hold. -/
def Listed (l : IrcLine) : Prop := ∃ m ∈ linestackMessages, baseEq l.args[0]? m = true

/-- A handler sends a client what `what` makes of a line, and goes on. -/
def Sends (now : Long) (f : SendFn) (what : IrcLine → Long → Option IrcLine) : Prop :=
  ∀ l t c ret c', Listed l → c.Attached → f l t c = .ok (ret, c') → ret = true ∧ c'.Attached ∧
    c'.sent = c.sent ++ (what l t).toList.map fun l => (now, l)

/-- What of some lines is for a client. -/
def made (what : IrcLine → Long → Option IrcLine) (ls : List (IrcLine × Long)) : List IrcLine :=
  ls.filterMap fun l => what l.1 l.2

/-! #### Which lines -/

/-- A message with a text. -/
def IsData (l : IrcLine) : Prop := IsMessage l ∧ 2 < l.argc

instance (l : IrcLine) : Decidable (IsData l) := inferInstanceAs (Decidable (_ ∧ _))

/-- A message with the time in front. -/
def timedLine (stime : Str) (l : IrcLine) : IrcLine :=
  { l with args := l.args.modify 2 (prefixedText stime) }

/-- What is sent of a line: a message, with its time if that is to be reported, and other lines if
not only messages are asked for. -/
def asSent (clock : ℤ → Str) (timeOffset : ℤ) (dataonly timed : Bool) (l : IrcLine) (t : Long) :
    Option IrcLine :=
  if IsData l then some (if timed then timedLine (clock (t.1 + timeOffset)) l else l)
  else if dataonly then none
  else some l

/-- A line is about a channel or a nick: that is its target, or one of its targets. -/
def Concerns (object : Str) (l : IrcLine) : Prop :=
  ∃ names ∈ l.args[1]?, (chr ',' ∉ names ∧ names = object) ∨
    (chr ',' ∈ names ∧ object ∈ gStrsplit names (chr ','))

instance (object : Str) (l : IrcLine) : Decidable (Concerns object l) :=
  inferInstanceAs (Decidable (∃ names ∈ l.args[1]?, _))

/-- Only the lines about it. -/
def concerning (object : Str) (what : IrcLine → Long → Option IrcLine) (l : IrcLine) (t : Long) :
    Option IrcLine :=
  if Concerns object l then what l t else none

/-- Messages with one of the patterns in their text. -/
def highlighted (patterns : List Str) (l : IrcLine) (_ : Long) : Option IrcLine :=
  if IsMessage l ∧ ∃ text ∈ l.args[2]?, ∃ w ∈ patterns, w <:+: text then some l else none

section
variable {now : Long} {clock : ℤ → Str} {timeOffset : ℤ} {f : SendFn} {c c' : Client} {l : IrcLine}
  {what : IrcLine → Long → Option IrcLine} {ret : Bool}

/-- Over many lines it sends what it makes of each of them. -/
theorem Sends.run (h : Sends now f what) {ls : List (IrcLine × Long)} (hls : ∀ l ∈ ls, Listed l.1)
    (hc : c.Attached) (hrun : f.run c ls = .ok (ret, c')) : ret = true ∧ c'.Attached ∧
      c'.sent = c.sent ++ (made what ls).map fun l => (now, l) := by
  induction ls generalizing c with
  | nil =>
      cases hrun
      exact ⟨rfl, hc, (List.append_nil _).symm⟩
  | cons l ls ih =>
      obtain ⟨⟨ret₁, c₁⟩, hl, hrest⟩ := bind_eq_ok hrun
      obtain ⟨rfl, hc₁, hsent₁⟩ := h l.1 l.2 c ret₁ c₁ (hls l List.mem_cons_self) hc hl
      obtain ⟨hret, hc', hsent⟩ := ih (fun l hl => hls l (List.mem_cons_of_mem _ hl)) hc₁ hrest
      refine ⟨hret, hc', ?_⟩
      rw [hsent, hsent₁, made, made, List.filterMap_cons]
      cases what l.1 l.2 with
      | none => rw [Option.toList_none, List.map_nil, List.append_nil]
      | some l' => rw [Option.toList_some, List.append_assoc]; rfl

/-- No line of a log is a 302 reply. -/
theorem strippedLine_listed (h : Listed l) : strippedLine l = l := by
  obtain ⟨m, hm, h⟩ := h
  refine if_neg fun hk => ?_
  have other : ∀ m ∈ linestackMessages,
      (ircCommands.find? fun e => baseEq (some m) e.1).map (fun e => e.2.2) ≠ some .c302 := by
    decide
  rw [commandOf] at hk
  split at hk
  · cases hk
  next cmd args hargs =>
  have h0 : l.args[0]? = some cmd := by rw [hargs]; rfl
  rw [h0] at h
  have hfind : (ircCommands.find? fun e => baseEq (some cmd) e.1) =
      ircCommands.find? fun e => baseEq (some m) e.1 := by simp only [baseEq_of_baseEq h]
  rw [hfind] at hk
  split at hk
  · cases hk
  next hk' =>
  split at hk
  · refine other m hm ?_
    rw [hk']
    exact hk
  · cases hk

theorem IsMessage.listed (h : IsMessage l) : Listed l := by
  rcases h with h | h
  · exact ⟨_, by simp [linestackMessages], h⟩
  · exact ⟨_, by simp [linestackMessages], h⟩

/-- A line is handed over, to a client and its state. -/
theorem clientSendLine_attached (hl : Listed l) (hc : c.Attached)
    (h : clientSendLine now c l = .ok (ret, c')) :
    ret = true ∧ c'.Attached ∧ c'.sent = c.sent ++ [(now, l)] := by
  obtain ⟨s, hs⟩ := Option.ne_none_iff_exists'.mp hc.state
  obtain ⟨s', -, rfl, rfl⟩ := clientSendLine_inv hc.connected hs h
  refine ⟨rfl, ⟨hc.connected, Option.some_ne_none s'⟩, ?_⟩
  rw [strippedLine_listed hl]

theorem timedLine_message {stime : Str} (h : IsMessage l) : IsMessage (timedLine stime l) := by
  rw [IsMessage, timedLine, List.getElem?_modify_ne _ _ (by decide)]
  exact h

theorem linePrefixTime_eq {stime : Str} (h : 2 < l.argc) :
    linePrefixTime stime l = .ok (timedLine stime l) := by
  have h2 : l.args[2]? = some l.args[2] := List.getElem?_eq_getElem h
  rw [linePrefixTime, IrcLine.argStr, if_pos h.le, h2, ok_bind, timedLine, List.modify_eq_set_getElem?,
    h2]
  rfl

/-- Nothing is sent, and the traversal goes on. -/
theorem sends_nothing {l' : Option IrcLine} (hl' : l' = none) (hc : c.Attached)
    (h : (Except.ok (true, c) : Except Fault (Bool × Client)) = .ok (ret, c')) :
    ret = true ∧ c'.Attached ∧ c'.sent = c.sent ++ l'.toList.map fun l => (now, l) := by
  cases h
  subst hl'
  exact ⟨rfl, hc, (List.append_nil _).symm⟩

theorem sendLine_sends : Sends now (sendLine now) (asSent clock timeOffset false false) := by
  intro l t c ret c' hl hc h
  have hsent : asSent clock timeOffset false false l t = some l := by
    rw [asSent, if_neg Bool.false_ne_true, if_neg Bool.false_ne_true, ite_self]
  rw [hsent]
  exact clientSendLine_attached hl hc h

theorem sendLineTimed_sends :
    Sends now (sendLineTimed clock now timeOffset) (asSent clock timeOffset false true) := by
  intro l t c ret c' hl hc h
  by_cases hdata : IsData l
  · rw [asSent, if_pos hdata, if_pos rfl]
    rw [sendLineTimed, if_pos (show IsMessage l ∧ 2 < l.argc from hdata),
      linePrefixTime_eq hdata.2] at h
    exact clientSendLine_attached (timedLine_message hdata.1).listed hc h
  · rw [asSent, if_neg hdata, if_neg Bool.false_ne_true]
    rw [sendLineTimed, if_neg (show ¬ (IsMessage l ∧ 2 < l.argc) from hdata)] at h
    exact clientSendLine_attached hl hc h

/-- Only messages with a text pass the two checks. -/
theorem dataonly_eq {α : Type} (l : IrcLine) (skip send : α) :
    (if ¬ IsMessage l then skip else if l.argc ≤ 2 then skip else send) =
      if IsData l then send else skip := by
  by_cases hm : IsMessage l
  · by_cases ht : l.argc ≤ 2
    · rw [if_neg (not_not.mpr hm), if_pos ht, if_neg fun hd : IsData l => Nat.not_lt.mpr ht hd.2]
    · rw [if_neg (not_not.mpr hm), if_neg ht, if_pos ⟨hm, Nat.not_le.mp ht⟩]
  · rw [if_pos hm, if_neg fun hd : IsData l => hm hd.1]

theorem sendLineDataonly_sends :
    Sends now (sendLineDataonly now) (asSent clock timeOffset true false) := by
  intro l t c ret c' hl hc h
  rw [sendLineDataonly, dataonly_eq] at h
  by_cases hdata : IsData l
  · rw [if_pos hdata] at h
    rw [asSent, if_pos hdata, if_neg Bool.false_ne_true]
    exact clientSendLine_attached hl hc h
  · rw [if_neg hdata] at h
    exact sends_nothing (by rw [asSent, if_neg hdata, if_pos rfl]) hc h

theorem sendLineTimedDataonly_sends :
    Sends now (sendLineTimedDataonly clock now timeOffset) (asSent clock timeOffset true true) := by
  intro l t c ret c' hl hc h
  rw [sendLineTimedDataonly, dataonly_eq] at h
  by_cases hdata : IsData l
  · rw [if_pos hdata, linePrefixTime_eq hdata.2] at h
    rw [asSent, if_pos hdata, if_pos rfl]
    exact clientSendLine_attached (timedLine_message hdata.1).listed hc h
  · rw [if_neg hdata] at h
    exact sends_nothing (by rw [asSent, if_neg hdata, if_pos rfl]) hc h

/-- The handler of `linestack_send`. -/
theorem travFn_sends (dataonly timed : Bool) : Sends now (travFn clock now timeOffset dataonly timed)
    (asSent clock timeOffset dataonly timed) := by
  cases dataonly with
  | true =>
      cases timed with
      | true => exact sendLineTimedDataonly_sends
      | false => exact sendLineDataonly_sends
  | false =>
      cases timed with
      | true => exact sendLineTimed_sends
      | false => exact sendLine_sends

/-- The handler of `linestack_send_object`. -/
theorem traverseObjectHandler_sends {object : Str} (h : Sends now f what) :
    Sends now (traverseObjectHandler object f) (concerning object what) := by
  intro l t c ret c' hl hc hcall
  have hskip : ¬ Concerns object l → traverseObjectHandler object f l t c = .ok (true, c) →
      ret = true ∧ c'.Attached ∧ c'.sent = c.sent ++
        (concerning object what l t).toList.map fun l => (now, l) := fun hno hok =>
    sends_nothing (if_neg hno) hc (hok.symm.trans hcall)
  have hdo : Concerns object l → traverseObjectHandler object f l t c = f l t c →
      ret = true ∧ c'.Attached ∧ c'.sent = c.sent ++
        (concerning object what l t).toList.map fun l => (now, l) := fun hyes hok => by
    rw [concerning, if_pos hyes]
    exact h l t c ret c' hl hc (hok.symm.trans hcall)
  cases hargs : l.args[1]? with
  | none =>
      refine hskip ?_ (by rw [traverseObjectHandler, hargs])
      rintro ⟨names, hnames, -⟩
      rw [hargs] at hnames
      cases hnames
  | some names =>
      have hcase : traverseObjectHandler object f l t c = if chr ',' ∉ names then
          if names = object then f l t c else .ok (true, c)
        else if object ∈ gStrsplit names (chr ',') then f l t c else .ok (true, c) := by
        rw [traverseObjectHandler, hargs]
      have hconcerns : Concerns object l ↔ (chr ',' ∉ names ∧ names = object) ∨
          (chr ',' ∈ names ∧ object ∈ gStrsplit names (chr ',')) := by
        rw [Concerns, hargs]
        simp
      by_cases hcomma : chr ',' ∈ names
      · rw [if_neg (not_not.mpr hcomma)] at hcase
        by_cases hin : object ∈ gStrsplit names (chr ',')
        · exact hdo (hconcerns.mpr (.inr ⟨hcomma, hin⟩)) (by rw [hcase, if_pos hin])
        · refine hskip (fun hyes => ?_) (by rw [hcase, if_neg hin])
          rcases hconcerns.mp hyes with ⟨hno, -⟩ | ⟨-, hyes⟩
          · exact hno hcomma
          · exact hin hyes
      · rw [if_pos hcomma] at hcase
        by_cases heq : names = object
        · exact hdo (hconcerns.mpr (.inl ⟨hcomma, heq⟩)) (by rw [hcase, if_pos heq])
        · refine hskip (fun hyes => ?_) (by rw [hcase, if_neg heq])
          rcases hconcerns.mp hyes with ⟨-, hyes⟩ | ⟨hyes, -⟩
          · exact heq hyes
          · exact hcomma hyes

/-- `check_highlight`. -/
theorem checkHighlight_sends (patterns : List Str) :
    Sends now (checkHighlight now patterns) (highlighted patterns) := by
  intro l t c ret c' hl hc h
  by_cases hm : IsMessage l
  · rw [checkHighlight, if_neg (not_not.mpr hm)] at h
    split at h
    · next hp =>
      refine sends_nothing (if_neg ?_) hc h
      rintro ⟨-, text, -, w, hw, -⟩
      rw [hp] at hw
      cases hw
    · obtain ⟨text, htext, h⟩ := bind_eq_ok h
      have h2 : l.args[2]? = some text := by
        rw [IrcLine.argStr] at htext
        split at htext
        · split at htext
          · next h2 => cases htext; exact h2
          · cases htext
        · cases htext
      split at h
      · next hin =>
        rw [highlighted, if_pos ⟨hm, text, h2, hin⟩]
        exact clientSendLine_attached hl hc h
      · next hin =>
        refine sends_nothing (if_neg ?_) hc h
        rintro ⟨-, text', htext', hin'⟩
        rw [h2] at htext'
        cases htext'
        exact hin hin'
  · rw [checkHighlight, if_pos hm] at h
    exact sends_nothing (if_neg fun hh => hm hh.1) hc h

/-- A client is sent what the handler makes of the lines since the marker, in order. -/
theorem traverseSending_sends {read : LineReader} {nd nd' nd'' : LinestackContext} {log : List Entry}
    (hread : ReadsCrLf read) (hh : Holds nd log) (hlog : ∀ e ∈ log, Listed e.line)
    (hm : Moved nd nd') (h : Sends now f what) (hc : c.Attached) {mf : Option ℕ}
    (hsend : traverseSending read nd' mf none f c = .ok (ret, nd'', c')) :
    ret = true ∧ nd'' = nd ∧ c'.Attached ∧
      c'.sent = c.sent ++ (made what (sinceMarker (log.map Entry.dated) mf)).map fun l => (now, l) := by
  rw [traverseSending_eq hread hh hm] at hsend
  obtain ⟨⟨ret', c₁⟩, hrun, he⟩ := map_eq_ok hsend
  cases he
  have hlisted : ∀ l ∈ sinceMarker (log.map Entry.dated) mf, Listed l.1 := by
    intro l hl
    obtain ⟨e, he, rfl⟩ := List.mem_map.mp (List.mem_of_mem_drop hl)
    exact hlog e he
  obtain ⟨hret, hc', hsent⟩ := h.run hlisted hc hrun
  exact ⟨hret, rfl, hc', hsent⟩

end

/-! ### Clients that go on taking lines -/

/-- A sender adds to what the client `c` was sent, and leaves it attached. -/
def Tells (c : Client) (x : Except Fault (Bool × Client)) : Prop :=
  Ensures x (fun r => r.2.Attached ∧ c.sent <+: r.2.sent) fun _ => True

section
variable {now : Long} {c : Client} {src : NetworkState}

theorem Tells.nothing {ret : Bool} (hc : c.Attached) : Tells c (.ok (ret, c)) :=
  ⟨hc, List.prefix_rfl⟩

theorem clientSendLine_tells {l : IrcLine} (hc : c.Attached) : Tells c (clientSendLine now c l) := by
  obtain ⟨s, hs⟩ := Option.ne_none_iff_exists'.mp hc.state
  cases h : clientSendLine now c l with
  | error e => trivial
  | ok r =>
      obtain ⟨s', -, -, hr⟩ := clientSendLine_inv hc.connected hs h
      show r.2.Attached ∧ c.sent <+: r.2.sent
      rw [hr]
      exact ⟨⟨hc.connected, Option.some_ne_none s'⟩, List.prefix_append _ _⟩

/-- One sender behind another. -/
theorem Tells.bind {x : Except Fault (Bool × Client)} {f : Bool × Client → Except Fault (Bool × Client)}
    (hx : Tells c x) (hf : ∀ r, r.2.Attached → Tells r.2 (f r)) : Tells c (x >>= f) :=
  Ensures.bind hx fun r hr => (hf r hr.1 : Ensures _ _ _).imp fun _ h => ⟨h.1, hr.2.trans h.2⟩

theorem Tells.andThen {x : Except Fault (Bool × Client)} {rest : Client → Except Fault (Bool × Client)}
    (hx : Tells c x) (hrest : ∀ c, c.Attached → Tells c (rest c)) :
    Tells c (x >>= fun r => andThen r rest) := by
  refine hx.bind fun r hr => ?_
  rw [Ctrlproxy.andThen]
  split
  · exact hrest r.2 hr
  · exact .nothing hr

/-- What is looked up first does not matter. -/
theorem Tells.lookup {α : Type} {x : Except Fault α} {f : α → Except Fault (Bool × Client)}
    (hf : ∀ a, Tells c (f a)) : Tells c (x >>= f) := by
  cases x with
  | error e => trivial
  | ok a => exact hf a

theorem clientSendResponse_tells {response : ℕ} {ap : List (Option Str)} (hc : c.Attached) :
    Tells c (clientSendResponse now c response ap) := by
  rw [clientSendResponse]
  split
  · trivial
  · exact .lookup fun _ => clientSendLine_tells hc

theorem sendOwnNick_tells (hc : c.Attached) : Tells c (sendOwnNick now c src) := by
  rw [sendOwnNick]
  split
  · exact .nothing hc
  · refine .lookup fun theirs => .lookup fun own => ?_
    split
    · split
      · exact clientSendLine_tells hc
      · exact .nothing hc
    · trivial

theorem clientSendTopic_tells {r : Ref} (hc : c.Attached) : Tells c (clientSendTopic now c src r false) := by
  refine .lookup fun ch => .andThen ?_ fun c hc => ?_
  · rw [sendTopicText]
    split
    · exact clientSendResponse_tells hc
    · exact .nothing hc
  · rw [sendTopicSetter]
    split
    · exact clientSendResponse_tells hc
    · exact .nothing hc

theorem flushLine_tells {l : Option IrcLine} (hc : c.Attached) : Tells c (flushLine now c l) := by
  cases l with
  | none => exact .nothing hc
  | some l => exact clientSendLine_tells hc

theorem namesLoop_tells {ch : ChannelState} {ms : List Ref} {l : Option IrcLine} (hc : c.Attached) :
    Tells c (namesLoop now src ch ms l c) := by
  induction ms generalizing l c with
  | nil => exact flushLine_tells hc
  | cons m ms ih =>
      refine .lookup fun arg => .lookup fun l' => ?_
      cases l' with
      | some l' => exact ih hc
      | none =>
          refine (flushLine_tells hc).bind fun r hr => .lookup fun l' => ?_
          rw [Ctrlproxy.andThen]
          split
          · exact ih hr
          · exact .nothing hr

theorem clientSendChannelState_tells {r : Ref} (hc : c.Attached) :
    Tells c (clientSendChannelState now c src r) := by
  refine .lookup fun ch => .lookup fun hm => .andThen (clientSendLine_tells hc) fun c hc => ?_
  refine .andThen (clientSendTopic_tells hc) fun c hc => .lookup fun ch => ?_
  exact .andThen (namesLoop_tells hc) fun c hc => clientSendResponse_tells hc

theorem sendChannels_tells {rs : List Ref} (hc : c.Attached) : Tells c (sendChannels now src rs c) := by
  induction rs generalizing c with
  | nil => exact .nothing hc
  | cons r rs ih => exact .andThen (clientSendChannelState_tells hc) fun c hc => ih hc

theorem clientSendState_tells (hc : c.Attached) : Tells c (clientSendState now c src) := by
  refine .andThen (sendOwnNick_tells hc) fun c hc => ?_
  refine .andThen (sendChannels_tells hc) fun c hc => .lookup fun me => ?_
  split
  · exact .nothing hc
  · exact clientSendLine_tells hc

end

end Ctrlproxy
