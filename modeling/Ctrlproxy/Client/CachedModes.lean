import Ctrlproxy.Client.CachedBans
import Ctrlproxy.State.Modes

/-!
# Client — the modes a client is given

`client_try_cache` answers the query `MODE #c` from the state of the channel
(`client_send_channel_mode` of `libirc/client.c`): the letters are those of the table of modes, and
behind them come the parameters that are kept for the letters of class C, by the classes of the
client's own state.
-/

namespace Ctrlproxy
open Outcome

/-- `MODE #c`. -/
def ModeQuery (l : IrcLine) (name : Str) : Prop :=
  ∃ cmd, l.args = [cmd, name] ∧ baseEq (some cmd) (str "MODE") = true

/-- A 324 line without its target that lists the modes, each once, and their parameters in the same
order. -/
def ListsModes (g : ModeView) (name : Str) (row : List Str) : Prop :=
  ∃ w : Str, row = responseStr 324 :: name :: (chr '+' :: w) :: w.filterMap (fun m => (g m).join) ∧
    w.Nodup ∧ ∀ m, m ∈ w ↔ g m ≠ none

/-- What is told of the modes: one 324 line, or none if no mode is set. -/
def TellsModes (g : ModeView) (name : Str) (rows : List (List Str)) : Prop :=
  (rows = [] ∧ ∀ m, g m = none) ∨ ∃ row, rows = [row] ∧ ListsModes g name row

/-- The client was told the modes, and by no other 324 line. -/
def ToldModes (c : Client) (g : ModeView) (name : Str) (c' : Client) : Prop :=
  ∃ rows created, c'.told = c.told ++ (rows ++ created) ∧ TellsModes g name rows ∧
    ∀ row ∈ created, row.head? ≠ some (responseStr 324)

/-- The query is answered with the modes of the channel, or it is forwarded. -/
structure AnswersModes (now : Long) (c : Client) (net : NetworkState) (r : Ref) (g : ModeView)
    (l : IrcLine) (maxWhoAge : ℤ) : Prop where
  answered : Total (clientTryCache now c net l maxWhoAge) fun x => x.1 = true →
    ∃ ch, net.chanHeap r = some ch ∧ ToldModes c g ch.name x.2

/-- The client counts a mode that is set to class C if it has a parameter; and no parameter is kept
for another letter of that class in the mode string, the sign among them. -/
structure ClassedAlike (c : Client) (ch : ChannelState) (g : ModeView) : Prop where
  state : ∃ s, c.state = some s ∧
    (∃ t, networkChanmodeType (chr '+') s.info = .ok t ∧
      (t = .optSetting → paramOf ch (chr '+') = none)) ∧
    ∀ m v, g m = some v → ∃ t, networkChanmodeType m s.info = .ok t ∧
      (v ≠ none → t = .optSetting) ∧ (v = none → t = .optSetting → paramOf ch m = none)

section
variable {now : Long} {c : Client} {net : NetworkState} {g : ModeView} {l : IrcLine} {name : Str}
  {maxWhoAge : ℤ} {r : Ref} {ch : ChannelState}

/-! ### The mode string -/

theorem mem_modes_iff (h : g.ShownBy ch.modes) (m : Byte) :
    m ∈ mode2stringBody ch.modes ↔ g m ≠ none := by
  rw [mem_mode2stringBody, ← h.flag m]
  constructor
  · rintro ⟨i, hi, hval⟩
    have hlt : m.1 < MAXMODES := hval ▸ i.2
    have slot : modeSlot m = .ok i := by
      rw [modeSlot, dif_pos hlt]
      exact congrArg _ (Fin.ext hval.symm)
    rw [flagOf, slot]
    exact hi
  · intro hflag
    unfold flagOf at hflag
    split at hflag
    · next i hi => exact ⟨i, hflag, modeSlot_val hi⟩
    · cases hflag

/-- The parameter behind a letter comes first. -/
theorem modeOptions_cons {info : NetworkInfo} {m : Byte} {w : Str} {opts : List Str}
    {i : Fin MAXMODES} {t : ChanmodeType} (hi : modeSlot m = .ok i)
    (ht : networkChanmodeType m info = .ok t) (hw : modeOptions info ch w = .ok opts) :
    modeOptions info ch (m :: w) =
      .ok ((if t = .optSetting then paramOf ch m else none).toList ++ opts) := by
  rw [modeOptions, ht, ok_bind]
  by_cases h : t = .optSetting
  · rw [if_pos h, if_pos h, hi, paramOf, hi, hw]
    rfl
  · rw [if_neg h, if_neg h, hw]
    rfl

/-- The parameters behind a mode string. -/
theorem modeOptions_eq {info : NetworkInfo} {v : Byte → Option Str} {w : Str}
    (h : ∀ m ∈ w, (∃ i, modeSlot m = .ok i) ∧ ∃ t, networkChanmodeType m info = .ok t ∧
      v m = if t = .optSetting then paramOf ch m else none) :
    modeOptions info ch w = .ok (w.filterMap v) := by
  induction w with
  | nil => rfl
  | cons m w ih =>
      obtain ⟨⟨i, hi⟩, t, ht, hv⟩ := h m List.mem_cons_self
      rw [modeOptions_cons hi ht (ih fun m hm => h m (List.mem_cons_of_mem _ hm)), ← hv,
        List.filterMap_cons]
      cases v m <;> rfl

/-- A mode string, and the modes it shows. -/
theorem mode2string_cases (h : g.ShownBy ch.modes) :
    (mode2string ch.modes = none ∧ ∀ m, g m = none) ∨
      mode2string ch.modes = some (chr '+' :: mode2stringBody ch.modes) := by
  rw [mode2string, if_neg (by simp [h.nul])]
  split
  · next hnil =>
    refine .inl ⟨rfl, fun m => ?_⟩
    by_contra hm
    have := (mem_modes_iff h m).mpr hm
    rw [hnil] at this
    cases this
  · exact .inr rfl

/-! ### The answer -/

/-- The modes are told if the client classes them alike. -/
theorem Attended.tellsModes (h : Attended c) (hheld : g.HeldBy ch) (halike : ClassedAlike c ch g) :
    Total (sendModeString now c ch)
      (fun x => x.1 = true ∧ ∃ rows, ToldRows c rows x.2 ∧ TellsModes g ch.name rows) := by
  rcases mode2string_cases hheld.shown with ⟨hnone, hempty⟩ | hmode
  · rw [sendModeString, hnone]
    exact ⟨rfl, [], .refl h, .inl ⟨rfl, hempty⟩⟩
  rw [sendModeString, hmode]
  dsimp only
  obtain ⟨s, hs, ⟨t, ht, hsign⟩, hlisted⟩ := halike.state
  obtain ⟨target, htarget, -⟩ := h.target.exists_ok
  set w := mode2stringBody ch.modes with hw
  have slots : ∀ m ∈ w, ∃ i, modeSlot m = .ok i := by
    intro m hm
    obtain ⟨i, -, hval⟩ := mem_mode2stringBody.mp hm
    have hlt : m.1 < MAXMODES := hval ▸ i.2
    exact ⟨⟨m.1, hlt⟩, dif_pos hlt⟩
  have params : modeOptions s.info ch w = .ok (w.filterMap fun m => (g m).join) := by
    refine modeOptions_eq fun m hm => ⟨slots m hm, ?_⟩
    obtain ⟨v, hv⟩ := Option.ne_none_iff_exists'.mp ((mem_modes_iff hheld.shown m).mp hm)
    obtain ⟨t, ht, hparam, hbare⟩ := hlisted m v hv
    refine ⟨t, ht, ?_⟩
    rw [hv, Option.join_some]
    cases v with
    | none =>
        split
        · next h => exact (hbare rfl h).symm
        · rfl
    | some p => rw [if_pos (hparam (Option.some_ne_none p)), hheld.param m p hv]
  have none : (if t = .optSetting then paramOf ch (chr '+') else none) = none := by
    split
    · next h => exact hsign h
    · rfl
  have line : channelModeLine c ch (chr '+' :: w) = .ok ⟨c.defaultOrigin, responseStr 324 :: target ::
      ch.name :: (chr '+' :: w) :: w.filterMap (fun m => (g m).join), .colonUnknown⟩ := by
    rw [channelModeLine, htarget, ok_bind, hs]
    dsimp only
    rw [modeOptions_cons rfl ht params, none]
    rfl
  rw [line, ok_bind]
  have hc := channelModeLine_command line
  have noFF : ¬ SignedFF (chr '+' :: w) := by
    rintro ⟨-, hmem⟩
    rcases List.mem_cons.mp hmem with h | h
    · exact absurd h (by decide)
    · obtain ⟨i, hi⟩ := slots _ h
      exact absurd (modeSlot_val hi) i.2.ne
  refine (h.sendLine (by simp [hc]) fun s hs => ?_).imp ?_
  · rw [stateStep_handler hc]
    refine handle324_total hs (by simp [IrcLine.argc]) fun _ w' hw' => ?_
    cases hw'
    exact noFF
  · rintro x ⟨htrue, htold⟩
    exact ⟨htrue, _, htold, .inr ⟨_, rfl, w, rfl,
      (mode2stringBody_sorted ch.modes).imp fun h e => by rw [e] at h; exact lt_irrefl _ h,
      mem_modes_iff hheld.shown⟩⟩

theorem creationTime_row : (ircCommands.find? fun e => baseEq (some (responseStr 329)) e.1) =
    some (str "329", 3, .c329) := by decide

theorem Attended.sendChannelMode (h : Attended c) (hch : net.chanHeap r = some ch)
    (hheld : g.HeldBy ch) (halike : ClassedAlike c ch g) :
    Total (clientSendChannelMode now c net r) (fun x => ToldModes c g ch.name x.2) := by
  rw [clientSendChannelMode, NetworkState.chan_eq hch, ok_bind]
  refine (h.tellsModes hheld halike).bind ?_
  rintro ⟨_, c₁⟩ ⟨rfl, rows, htold, htells⟩
  rw [andThen, if_pos rfl]
  split
  · refine (htold.1.sendRow (by decide) creationTime_row le_rfl (by decide)
      fun s l hs hargc => handle329_total hs hargc).imp ?_
    rintro ⟨_, c₂⟩ ⟨rfl, htold'⟩
    refine ⟨rows, _, (htold.trans htold').2, htells, fun row hrow => ?_⟩
    rw [List.mem_singleton.mp hrow]
    exact fun e => absurd (Option.some.inj e) (by decide)
  · refine ⟨rows, [], ?_, htells, fun _ h => by cases h⟩
    rw [List.append_nil]
    exact htold.2

/-! ### Queries -/

/-- The query in one step. -/
theorem modeQuery_eq (h : ModeQuery l name) (hcomma : chr ',' ∉ name)
    (hr : findChannel net name = .ok (some r)) (hch : net.chanHeap r = some ch) :
    clientTryCache now c net l maxWhoAge = if ch.modeReceived then
      clientSendChannelMode now c net r >>= fun x => pure (true, x.2) else .ok (false, c) := by
  obtain ⟨cmd, hargs, hcmd⟩ := h
  have hargc : l.argc = 2 := by rw [IrcLine.argc, hargs]; rfl
  have h0 : l.args[0]? = some cmd := by rw [hargs]; rfl
  have h1 : l.argStr 1 = .ok name := by rw [IrcLine.argStr, if_pos (by omega), hargs]; rfl
  rw [clientTryCache, if_neg (by omega), h0, if_pos hcmd, clientTryCacheMode, if_neg (by omega), h1,
    ok_bind, if_neg hcomma, if_neg (by omega), if_pos hargc, hr, ok_bind]
  dsimp only
  rw [NetworkState.chan_eq hch, ok_bind]
  split <;> rfl

/-- A query that names several channels is forwarded. -/
theorem modeQuery_comma (h : ModeQuery l name) (hcomma : chr ',' ∈ name) :
    clientTryCache now c net l maxWhoAge = .ok (false, c) := by
  obtain ⟨cmd, hargs, hcmd⟩ := h
  have hargc : l.argc = 2 := by rw [IrcLine.argc, hargs]; rfl
  have h0 : l.args[0]? = some cmd := by rw [hargs]; rfl
  have h1 : l.argStr 1 = .ok name := by rw [IrcLine.argStr, if_pos (by omega), hargs]; rfl
  rw [clientTryCache, if_neg (by omega), h0, if_pos hcmd, clientTryCacheMode, if_neg (by omega), h1,
    ok_bind, if_pos hcomma]
  rfl

/-- **Cached channel modes are those the server told**, after every 324 reply that repeats the
parameters that are kept and every run of MODE lines that change what the table of modes need not
know of, for every client that is served and classes the modes alike. -/
theorem modeQuery_answersModes {s₀ s₁ : NetworkState} {i : Input} (hreply : ModesReply s₀ r i.2)
    (hs : stateStep s₀ i = .ok s₁)
    (h : Reach modeRunStep (fun x j => ModesLine r x j.2) (s₁, toldModes s₀.info i.2 3 .empty) (net, g))
    (hc : Attended c) (halike : ∀ ch, net.chanHeap r = some ch → ClassedAlike c ch g)
    (hq : ModeQuery l name) (hr : findChannel net name = .ok (some r)) :
    AnswersModes now c net r g l maxWhoAge := by
  obtain ⟨ch, hch, hheld⟩ := modeRun_held hreply hs h
  refine ⟨?_⟩
  by_cases hcomma : chr ',' ∈ name
  · rw [modeQuery_comma hq hcomma]
    exact nofun
  rw [modeQuery_eq hq hcomma hr hch]
  split
  · exact (hc.sendChannelMode hch hheld (halike ch hch)).bind fun x hx _ => ⟨ch, hch, hx⟩
  · exact nofun

end

/-! ### Two channels -/

/-- What the examples ask. -/
def askModes : IrcLine := (inputOf "MODE #c").2

theorem askModes_query : ModeQuery askModes (str "#c") :=
  ⟨str "MODE", by simp [askModes, inputOf, ircParseLine, parseArgs, str, chr], by decide⟩

/-- A parameter that is kept is repeated by a reply and changed by a MODE line. -/
theorem changed_param {s₀ : NetworkState} {reply change : Input} {name w : Str} {r : Ref} {m : Byte}
    {p q : Str} (hreply : commandOf reply.2 = some .c324) (hchange : commandOf change.2 = some .mode)
    (hname : reply.2.args[2]? = some name) (hname' : change.2.args[1]? = some name)
    (hw : reply.2.args[3]? = some (chr '+' :: w))
    (run : (stateStep s₀ reply >>= fun s₁ => (stateStep s₁ change).map fun s₂ => decide (
      (findChannel s₀ name = .ok (some r) ∧ networkChanmodeType m s₀.info = .ok .optSetting ∧
        lineChanges s₀.info reply.2 3 = some [⟨true, m, some p⟩] ∧
        ((s₀.chanHeap r).map fun ch => paramOf ch m) = some (some p)) ∧
      (findChannel s₁ name = .ok (some r) ∧ networkChanmodeType m s₁.info = .ok .optSetting ∧
        lineChanges s₁.info change.2 2 = some [⟨true, m, some q⟩] ∧
        isChannelname name s₁.info = .ok true) ∧
      findChannel s₂ name = .ok (some r))) = .ok true) :
    ∃ s₁ x, ModesReply s₀ r reply.2 ∧ stateStep s₀ reply = .ok s₁ ∧
      Reach modeRunStep (fun x j => ModesLine r x j.2) (s₁, toldModes s₀.info reply.2 3 .empty) x ∧
      x.2 = Function.update ModeView.empty m (some (some q)) ∧ findChannel x.1 name = .ok (some r) := by
  obtain ⟨s₁, h₁, run⟩ := bind_eq_ok run
  obtain ⟨s₂, h₂, facts⟩ := map_eq_ok run
  obtain ⟨⟨hfound, hclass, hxs, hparam⟩, ⟨hfound₁, hclass₁, hxs₁, hchan⟩, hfound₂⟩ :=
    of_decide_eq_true facts
  have own : isOwnMode s₀.info m = true := by rw [isOwnMode, hclass]
  have own₁ : isOwnMode s₁.info m = true := by rw [isOwnMode, hclass₁]
  have told : toldModes s₀.info reply.2 3 .empty = Function.update ModeView.empty m (some (some p)) := by
    rw [toldModes, hxs]
    exact ModeView.change_own own true (some p)
  have told₁ : toldModes s₁.info change.2 2 (toldModes s₀.info reply.2 3 .empty) =
      Function.update ModeView.empty m (some (some q)) := by
    rw [told, toldModes, hxs₁]
    refine (ModeView.change_own own₁ true (some q)).trans ?_
    rw [Function.update_idem]
    rfl
  have line : ModesLine r (s₁, toldModes s₀.info reply.2 3 .empty) change.2 := by
    refine ⟨hchange, ⟨name, hname', hchan, hfound₁⟩, _, hxs₁, ?_, ?_, trivial⟩
    · dsimp only [Recorded]
      rw [hclass₁, told, Function.update_self]
      rfl
    · exact fun _ y hy => by cases hy
  have step : modeRunStep (s₁, toldModes s₀.info reply.2 3 .empty) change =
      .ok (s₂, toldModes s₁.info change.2 2 (toldModes s₀.info reply.2 3 .empty)) := by
    rw [modeRunStep, h₂]
    rfl
  refine ⟨s₁, _, ⟨⟨hreply, ⟨name, hname, hfound⟩, ⟨w, hw⟩, _, hxs, ?_⟩, ?_⟩, h₁,
    .step .refl line step, told₁, hfound₂⟩
  · intro x hx
    rw [List.mem_singleton.mp hx]
    exact own
  · intro ch hch m' p' hp'
    rw [told] at hp'
    by_cases hm : m' = m
    · subst hm
      rw [Function.update_self] at hp'
      cases hp'
      rw [hch] at hparam
      exact Option.some.inj hparam
    · rw [Function.update_of_ne hm] at hp'
      cases hp'

/-- One mode with a parameter, of class C for the client. -/
theorem classedAlike_param {c : Client} {s : NetworkState} {ch : ChannelState} {m : Byte} {p : Str}
    {t : ChanmodeType} (hs : c.state = some s) (hsign : networkChanmodeType (chr '+') s.info = .ok t)
    (ht : t ≠ .optSetting) (hm : networkChanmodeType m s.info = .ok .optSetting) :
    ClassedAlike c ch (Function.update ModeView.empty m (some (some p))) := by
  refine ⟨s, hs, ⟨t, hsign, fun h => absurd h ht⟩, fun m' v hv => ?_⟩
  by_cases h : m' = m
  · subst h
    rw [Function.update_self] at hv
    cases hv
    exact ⟨_, hm, fun _ => rfl, nofun⟩
  · rw [Function.update_of_ne h] at hv
    cases hv

/-- A channel with a limit that was changed before the reply. -/
theorem modeQuery_answersModes_limit : ∃ s₀ s₁ x,
    (stateStep freshUser (inputOf ":me!u@h JOIN #c") >>= fun s =>
      stateStep s (inputOf ":me!u@h MODE #c +l 5")) = .ok s₀ ∧
    stateStep s₀ (inputOf ":s 324 me #c +l 5") = .ok s₁ ∧
    Reach modeRunStep (fun x j => ModesLine 1 x j.2)
      (s₁, toldModes s₀.info (inputOf ":s 324 me #c +l 5").2 3 .empty) x ∧
    x.2 = Function.update ModeView.empty (chr 'l') (some (some (str "7"))) ∧
    AnswersModes long0 freshClient x.1 1 x.2 askModes 0 := by
  have run : ((stateStep freshUser (inputOf ":me!u@h JOIN #c") >>= fun s =>
      stateStep s (inputOf ":me!u@h MODE #c +l 5")) >>= fun s₀ =>
      stateStep s₀ (inputOf ":s 324 me #c +l 5") >>= fun s₁ =>
      (stateStep s₁ (inputOf ":me!u@h MODE #c +l 7")).map fun s₂ => decide (
      (findChannel s₀ (str "#c") = .ok (some 1) ∧
        networkChanmodeType (chr 'l') s₀.info = .ok .optSetting ∧
        lineChanges s₀.info (inputOf ":s 324 me #c +l 5").2 3 = some [⟨true, chr 'l', some (str "5")⟩] ∧
        ((s₀.chanHeap 1).map fun ch => paramOf ch (chr 'l')) = some (some (str "5"))) ∧
      (findChannel s₁ (str "#c") = .ok (some 1) ∧
        networkChanmodeType (chr 'l') s₁.info = .ok .optSetting ∧
        lineChanges s₁.info (inputOf ":me!u@h MODE #c +l 7").2 2 =
          some [⟨true, chr 'l', some (str "7")⟩] ∧
        isChannelname (str "#c") s₁.info = .ok true) ∧
      findChannel s₂ (str "#c") = .ok (some 1))) = .ok true := by decide +kernel
  obtain ⟨s₀, hs₀, run⟩ := bind_eq_ok run
  obtain ⟨s₁, x, hreply, hs₁, hreach, hview, hfound⟩ := @changed_param s₀
    (inputOf ":s 324 me #c +l 5") (inputOf ":me!u@h MODE #c +l 7") (str "#c") (str "l") 1 (chr 'l')
    (str "5") (str "7") (by decide +kernel) (by decide +kernel) (by decide +kernel)
    (by decide +kernel) (by decide +kernel) run
  have alike : ∀ ch, x.1.chanHeap 1 = some ch → ClassedAlike freshClient ch x.2 := by
    intro ch _
    rw [hview]
    exact @classedAlike_param freshClient freshUser ch (chr 'l') (str "7") .unknown rfl
      (by decide +kernel) (by decide) (by decide +kernel)
  have answers := @modeQuery_answersModes long0 freshClient x.1 x.2 askModes (str "#c") 0 1 s₀ s₁
    (inputOf ":s 324 me #c +l 5") hreply hs₁ hreach freshClient_attended alike askModes_query hfound
  exact ⟨s₀, s₁, x, hs₀, hs₁, hreach, hview, answers⟩

/-- A letter without the parameter that its mode has. -/
theorem not_toldModes_bare {c c' : Client} {g : ModeView} {m : Byte} {p name : Str}
    (hg : g m = some (some p))
    (htold : c'.told = c.told ++ [[responseStr 324, name, [chr '+', m]]]) (name' : Str) :
    ¬ ToldModes c g name' c' := by
  rintro ⟨rows, created, hrows, htells, hcreated⟩
  have split : rows ++ created = [[responseStr 324, name, [chr '+', m]]] :=
    List.append_cancel_left (hrows.symm.trans htold)
  rcases htells with ⟨-, hempty⟩ | ⟨row, rfl, w, hrow, -, -⟩
  · rw [hempty] at hg
    cases hg
  · obtain ⟨rfl, -⟩ := List.cons.inj split
    simp only [List.cons.injEq, true_and] at hrow
    obtain ⟨-, hw, hparams⟩ := hrow
    rw [← hw, List.filterMap_cons, hg] at hparams
    cases hparams

/-- A reply whose parameters are not listed, after a JOIN line. -/
theorem not_answersModes_of_run {s : NetworkState} {join i : Input} {c : Client} {l : IrcLine}
    {now : Long} {maxWhoAge : ℤ} {r : Ref} {m : Byte} {p name w : Str}
    (hcommand : commandOf i.2 = some .c324) (hname : i.2.args[2]? = some name)
    (hw : i.2.args[3]? = some (chr '+' :: w))
    (run : (stateStep s join >>= fun s₀ => (stateStep s₀ i).map fun s₁ => decide (
      findChannel s₀ name = .ok (some r) ∧ isOwnMode s₀.info m = true ∧
      lineChanges s₀.info i.2 3 = some [⟨true, m, some p⟩] ∧
      (clientTryCache now c s₁ l maxWhoAge).map (fun x => (x.1, x.2.told)) =
        .ok (true, c.told ++ [[responseStr 324, name, [chr '+', m]]]))) = .ok true) :
    ¬ ∀ s₀ s₁, stateStep s join = .ok s₀ → ModesTold s₀ r i.2 → stateStep s₀ i = .ok s₁ →
      AnswersModes now c s₁ r (toldModes s₀.info i.2 3 .empty) l maxWhoAge := by
  intro claim
  obtain ⟨s₀, h₀, run⟩ := bind_eq_ok run
  obtain ⟨s₁, h₁, facts⟩ := map_eq_ok run
  obtain ⟨hfound, hown, hxs, hanswer⟩ := of_decide_eq_true facts
  obtain ⟨x, hx, hrow⟩ := map_eq_ok hanswer
  rw [Prod.mk.injEq] at hrow
  have told : toldModes s₀.info i.2 3 .empty = Function.update ModeView.empty m (some (some p)) := by
    rw [toldModes, hxs]
    exact ModeView.change_own hown true (some p)
  have reply : ModesTold s₀ r i.2 := by
    refine ⟨hcommand, ⟨name, hname, hfound⟩, ⟨w, hw⟩, _, hxs, fun y hy => ?_⟩
    rw [List.mem_singleton.mp hy]
    exact hown
  obtain ⟨ch, -, htold⟩ := (claim s₀ s₁ h₀ reply h₁).answered.of_ok hx hrow.1
  rw [told] at htold
  exact not_toldModes_bare (Function.update_self m _ _) hrow.2 ch.name htold

/-- The key of a reply is not told. -/
theorem replied_key_dropped : ¬ ∀ s₀ s₁, stateStep freshUser (inputOf ":me!u@h JOIN #c") = .ok s₀ →
    ModesTold s₀ 1 (inputOf ":s 324 me #c +k secret").2 →
    stateStep s₀ (inputOf ":s 324 me #c +k secret") = .ok s₁ →
    AnswersModes long0 freshClient s₁ 1
      (toldModes s₀.info (inputOf ":s 324 me #c +k secret").2 3 .empty) askModes 0 :=
  @not_answersModes_of_run freshUser (inputOf ":me!u@h JOIN #c") (inputOf ":s 324 me #c +k secret")
    freshClient askModes long0 0 1 (chr 'k') (str "secret") (str "#c") (str "k") (by decide +kernel)
    (by decide +kernel) (by decide +kernel) (by decide +kernel)

end Ctrlproxy
