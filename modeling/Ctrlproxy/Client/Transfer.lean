import Ctrlproxy.Client.Mirror
import Ctrlproxy.Client.Observer

/-!
# Client — a state is told to a fresh client

`client_send_state` spells out a state to a client that just connected.  Someone who reads the lines
the client gets, and started like the client, ends with the channels of the state, their topics,
types and members (`Transferred`).  What the lines leave out: the modes of the user, whose MODE line
has no target, a setter of a topic without a time, and a name too long for any line.
-/

namespace Ctrlproxy
open Outcome

/-! ### A client that is told lines -/

/-- The client has a state of this user, and what it got so far made `O₀` a state with `Obs`. -/
structure Telling (nick hm : Str) (origin : Option Str) (O₀ : NetworkState)
    (Obs : NetworkState → Prop) (c : Client) : Prop where
  connected : c.connected = true
  origin : c.defaultOrigin = origin
  hosting : ∃ M, c.state = some M ∧ Hosting nick hm M
  observed : ∃ O, mirror O₀ c.sent = .ok O ∧ Obs O

section
variable {nick hm : Str} {origin : Option Str} {O₀ : NetworkState} {Obs Obs' : NetworkState → Prop}
  {c : Client} {now : Long} {l : IrcLine}

theorem Telling.target (h : Telling nick hm origin O₀ Obs c) :
    clientGetDefaultTarget c = .ok nick := by
  obtain ⟨M, hM, hh⟩ := h.hosting
  obtain ⟨me, hme, hnick, -⟩ := hh.me
  rw [clientGetDefaultTarget, hM]
  dsimp only
  rw [NetworkState.nick_eq hme, ok_bind, hnick]
  rfl

theorem Telling.hostmask (h : Telling nick hm origin O₀ Obs c) :
    clientGetOwnHostmask c = .ok (some hm) := by
  obtain ⟨M, hM, hh⟩ := h.hosting
  obtain ⟨me, hme, -, hmask⟩ := hh.me
  rw [clientGetOwnHostmask, hM]
  dsimp only
  rw [NetworkState.nick_eq hme, ok_bind, hmask]
  rfl

/-- A line is told. -/
theorem Telling.send (h : Telling nick hm origin O₀ Obs c)
    (hM : ∀ M, Hosting nick hm M → Total (stateStep M (now, l)) (Hosting nick hm))
    (hO : ∀ O, Obs O → Total (mirrorStep O (now, strippedLine l)) Obs') :
    Total (clientSendLine now c l) fun r => r.1 = true ∧ Telling nick hm origin O₀ Obs' r.2 := by
  obtain ⟨M, hMs, hh⟩ := h.hosting
  obtain ⟨O, hsent, hobs⟩ := h.observed
  obtain ⟨M', hM', hh'⟩ := (hM M hh).exists_ok
  obtain ⟨O', hO', hobs'⟩ := (hO O hobs).exists_ok
  rw [clientSendLine_state h.connected hMs, hM']
  refine ⟨rfl, h.connected, h.origin, ⟨M', rfl, hh'⟩, O', ?_, hobs'⟩
  dsimp only
  rw [mirror_snoc, hsent, ok_bind, hO']

/-- A line that is read as it is. -/
theorem Telling.survives (h : Telling nick hm origin O₀ Obs c) (hl : Told l)
    (hM : ∀ M, Hosting nick hm M → Total (stateStep M (now, l)) (Hosting nick hm))
    (hO : ∀ O, Obs O → Total (stateStep O (now, l)) Obs') :
    Total (clientSendLine now c l) fun r => r.1 = true ∧ Telling nick hm origin O₀ Obs' r.2 := by
  refine h.send hM fun O hobs => ?_
  rw [hl.mirrorStep]
  exact hO O hobs

end

/-! ### What the lines of a channel tell -/

/-- The channel `ch₀` is being spelled out: its topic and its setter so far, and the members that
were listed. -/
def Spelling (nick hm : Str) (S : NetworkState) (done : List Ref) (ch₀ : ChannelState)
    (topic setter : Option Str) (taken : List Ref) (O : NetworkState) : Prop :=
  ∃ c ch, Opened nick hm S O done c ch ∧ ch.name = ch₀.name ∧ ch.topic = topic ∧
    ch.topicSetBy = setter ∧
    (taken = [] ∧ ch.namreplyStarted = false ∧ OnlyMe O ch ∨
      ch.namreplyStarted = true ∧ ch.mode = ch₀.mode ∧
        List.Forall₂ (MemberTold S O) taken ch.nicks)

section
variable {S O : NetworkState} {nick hm : Str} {origin : Option Str} {done taken more rest : List Ref}
  {c₀ : Ref} {ch₀ : ChannelState} {topic setter : Option Str} {now : Long} {mark : HasEndcolon}

/-- JOIN. -/
theorem View.joinLine (h : View nick hm S O done O.channels) (hS : Tellable S)
    (hme : nameOf S meRef = some nick) (hfront : upToBang hm = nick) (hc : ChannelSpelled ch₀)
    (hno : Unused S done ch₀.name) :
    Total (stateStep O (now, ⟨some hm, [str "JOIN", ch₀.name], mark⟩))
      (Spelling nick hm S done ch₀ none none []) := by
  obtain ⟨O', c, ch, hjoin, hopen, hj⟩ := h.joinChannel hS hme hno
  have hk : commandOf ⟨some hm, [str "JOIN", ch₀.name], mark⟩ = some .join :=
    commandOf_known (n := 1) rfl rfl (by simp)
  have hsplit : gStrsplit ch₀.name (chr ',') = [ch₀.name] := by
    rw [gStrsplit, if_neg hc.nonempty, pieces_single hc.comma]
  have hstep : stateStep O (now, ⟨some hm, [str "JOIN", ch₀.name], mark⟩) =
      (gStrsplit ch₀.name (chr ',')).foldlM (Ctrlproxy.joinChannel hm (upToBang hm)) O :=
    stateStep_handler (k := .join) hk
  rw [hstep, hsplit, hfront, List.foldlM_cons, hjoin, ok_bind]
  exact ⟨c, ch, hopen, hj.name, hj.topic, hj.setter, .inl ⟨rfl, hj.started, hj.onlyMe⟩⟩

/-- 332. -/
theorem Spelling.topicLine (h : Spelling nick hm S done ch₀ topic setter [] O)
    (hno : Unused S done ch₀.name) (target w : Str) :
    Total (stateStep O (now, ⟨origin, [str "332", target, ch₀.name, w], mark⟩))
      (Spelling nick hm S done ch₀ (some w) setter []) := by
  obtain ⟨c, ch, hopen, hname, -, hsetter, hlisted⟩ := h
  have hk : commandOf ⟨origin, [str "332", target, ch₀.name, w], mark⟩ = some .c332 :=
    commandOf_known (n := 3) rfl rfl (by simp)
  have hstep : stateStep O (now, ⟨origin, [str "332", target, ch₀.name, w], mark⟩) =
      handle332 O ⟨origin, [str "332", target, ch₀.name, w], mark⟩ :=
    stateStep_handler (k := .c332) hk
  have hset : handle332 O ⟨origin, [str "332", target, ch₀.name, w], mark⟩ =
      .ok (O.setChan c { ch with topic := some w }) :=
    hname ▸ hopen.modify (hname.symm ▸ hno) _
  rw [hstep, hset]
  exact ⟨c, _, hopen.setChan rfl rfl, hname, rfl, hsetter, hlisted⟩

/-- 333. -/
theorem Spelling.setterLine (h : Spelling nick hm S done ch₀ topic setter [] O)
    (hno : Unused S done ch₀.name) (target w time : Str) :
    Total (stateStep O (now, ⟨origin, [str "333", target, ch₀.name, w, time], mark⟩))
      (Spelling nick hm S done ch₀ topic (some w) []) := by
  obtain ⟨c, ch, hopen, hname, htopic, -, hlisted⟩ := h
  have hk : commandOf ⟨origin, [str "333", target, ch₀.name, w, time], mark⟩ = some .c333 :=
    commandOf_known (n := 3) rfl rfl (by simp)
  have hstep : stateStep O (now, ⟨origin, [str "333", target, ch₀.name, w, time], mark⟩) =
      handle333 O ⟨origin, [str "333", target, ch₀.name, w, time], mark⟩ :=
    stateStep_handler (k := .c333) hk
  have hset : handle333 O ⟨origin, [str "333", target, ch₀.name, w, time], mark⟩ =
      .ok (O.setChan c { ch with topicSetTime := (strtol time 0).1, topicSetBy := some w }) :=
    hname ▸ hopen.modify (hname.symm ▸ hno) _
  rw [hstep, hset]
  exact ⟨c, _, hopen.setChan rfl rfl, hname, htopic, rfl, hlisted⟩

/-- 353, as it is read. -/
theorem Spelling.namesLine (h : Spelling nick hm S done ch₀ topic setter taken O) (hS : Tellable S)
    (hno : Unused S done ch₀.name) (hc₀ : c₀ ∈ S.channels) (hch₀ : S.chanHeap c₀ = some ch₀)
    {n : Str} {ns : List Str} (hws : List.Forall₂ (MemberArg S) more (n :: ns))
    (hsplit : ch₀.nicks = taken ++ more ++ rest) (hn : n ≠ []) (hspace : ∀ x ∈ n :: ns, chr ' ' ∉ x)
    (target : Str) : Total (stateStep O (now, namesWire origin target ch₀ n ns))
      (Spelling nick hm S done ch₀ topic setter (taken ++ more)) := by
  obtain ⟨c, ch, hopen, hname, htopic, hsetter, hlisted⟩ := h
  have hk : commandOf (namesWire origin target ch₀ n ns) = some .namreply := rfl
  have hstep : stateStep O (now, namesWire origin target ch₀ n ns) =
      handleNamreply O (namesWire origin target ch₀ n ns) :=
    stateStep_handler (k := .namreply) hk
  obtain ⟨O', l, hnames, hopen', htold⟩ := hopen.handleNamreply hS (hname.symm ▸ hno) hc₀ hch₀ hname
    hws hsplit hn hspace (hlisted.imp_right fun h => ⟨h.1, h.2.2⟩) origin target
  rw [hstep, hnames]
  exact ⟨c, _, hopen', hname, htopic, hsetter, .inr ⟨rfl, rfl, htold⟩⟩

/-- 366, after all members. -/
theorem Spelling.endLine (h : Spelling nick hm S done ch₀ ch₀.topic (toldSetter ch₀) ch₀.nicks O)
    (hno : Unused S done ch₀.name) (hch₀ : S.chanHeap c₀ = some ch₀) (hne : ch₀.nicks ≠ [])
    (target w : Str) :
    Total (stateStep O (now, ⟨origin, [str "366", target, ch₀.name, w], mark⟩))
      (fun O' => View nick hm S O' (done ++ [c₀]) O'.channels) := by
  obtain ⟨c, ch, hopen, hname, htopic, hsetter, hlisted⟩ := h
  have hk : commandOf ⟨origin, [str "366", target, ch₀.name, w], mark⟩ = some .endNames :=
    commandOf_known (n := 2) rfl rfl (by simp)
  have hstep : stateStep O (now, ⟨origin, [str "366", target, ch₀.name, w], mark⟩) =
      handleEndNames O ⟨origin, [str "366", target, ch₀.name, w], mark⟩ :=
    stateStep_handler (k := .endNames) hk
  have hset : handleEndNames O ⟨origin, [str "366", target, ch₀.name, w], mark⟩ =
      .ok (O.setChan c { ch with namreplyStarted := false }) :=
    hname ▸ hopen.modify (hname.symm ▸ hno) _
  rw [hstep, hset]
  rcases hlisted with ⟨hnil, -⟩ | ⟨-, hmode, htold⟩
  · exact absurd hnil hne
  have hopen' : Opened nick hm S (O.setChan c { ch with namreplyStarted := false }) done c
      { ch with namreplyStarted := false } := hopen.setChan rfl rfl
  obtain ⟨acc, hcs, hv⟩ := hopen'.view
  refine ⟨hv.graph, hv.info, hv.me, hv.names, List.Subset.refl _, ?_⟩
  rw [hcs]
  refine List.rel_append hv.told (.cons ?_ .nil)
  exact ⟨ch₀, _, hch₀, hopen'.chan, hname, htopic, hsetter, hmode, htold⟩

end

/-! ### The lines on the wire -/

theorem Told.of_survives {l : IrcLine} (h : Survives l) (hk : commandOf l ≠ some .c302) : Told l := by
  refine .survives ?_
  rw [strippedLine, if_neg hk]
  exact h

section
variable {origin : Option Str} {hm name target w time : Str}

theorem joinLine_told (ho : chr ' ' ∉ hm) (hname : Bare name) :
    Told (vircParseLine (some hm) [some (str "JOIN"), some name]) := by
  have hk : commandOf (vircParseLine (some hm) [some (str "JOIN"), some name]) = some .join :=
    commandOf_known (n := 1) rfl rfl (by simp [vaList])
  refine .of_survives ⟨?_, str "JOIN", [name], rfl, by decide, ?_, nofun, nofun⟩ (by rw [hk]; decide)
  · rintro o ⟨⟩
    exact ho
  · exact .cons hname.1 hname.2 .nil

theorem topicLine_told (ho : ∀ o ∈ origin, chr ' ' ∉ o) (ht : Bare target) (hname : Bare name)
    (hw : NoEol w) : Told (vircParseResponse origin target 332 [some name, some w]) := by
  have hk : commandOf (vircParseResponse origin target 332 [some name, some w]) = some .c332 :=
    commandOf_known (n := 3) rfl rfl (by simp [vaList])
  refine .of_survives ⟨ho, str "332", [target, name, w], rfl, by decide, ?_, fun _ => by decide, nofun⟩
    (by rw [hk]; decide)
  exact .cons ht.1 ht.2 (.cons hname.1 hname.2 (.colon hw))

theorem setterLine_told (ho : ∀ o ∈ origin, chr ' ' ∉ o) (ht : Bare target) (hname : Bare name)
    (hw : Bare w) (htime : Bare time) :
    Told (vircParseResponse origin target 333 [some name, some w, some time]) := by
  have hk : commandOf (vircParseResponse origin target 333 [some name, some w, some time]) =
      some .c333 := commandOf_known (n := 3) rfl rfl (by simp [vaList])
  refine .of_survives
    ⟨ho, str "333", [target, name, w, time], rfl, by decide, ?_, fun _ => by decide, nofun⟩
    (by rw [hk]; decide)
  exact .cons ht.1 ht.2 (.cons hname.1 hname.2 (.cons hw.1 hw.2 (.cons htime.1 htime.2 .nil)))

theorem endLine_told (ho : ∀ o ∈ origin, chr ' ' ∉ o) (ht : Bare target) (hname : Bare name)
    (hw : NoEol w) : Told (vircParseResponse origin target 366 [some name, some w]) := by
  have hk : commandOf (vircParseResponse origin target 366 [some name, some w]) = some .endNames :=
    commandOf_known (n := 2) rfl rfl (by simp [vaList])
  refine .of_survives ⟨ho, str "366", [target, name, w], rfl, by decide, ?_, fun _ => by decide, nofun⟩
    (by rw [hk]; decide)
  exact .cons ht.1 ht.2 (.cons hname.1 hname.2 (.colon hw))

/-- A number is one argument. -/
theorem decimalInt_bare (v : ℤ) : Bare (decimalInt v) := by
  have sign : ∀ b ∈ decimalInt v, b = chr '-' ∨ 48 ≤ b.1 ∧ b.1 ≤ 57 := by
    intro b hb
    rw [decimalInt] at hb
    split at hb
    · exact (List.mem_cons.mp hb).imp_right mem_decimal
    · exact .inr (mem_decimal hb)
  have apart : ∀ c ∈ [chr ' ', chr '\r', chr '\n', chr ':'], c ≠ chr '-' ∧ (c.1 < 48 ∨ 57 < c.1) := by
    decide
  have hne : ∀ b ∈ decimalInt v, ∀ c ∈ [chr ' ', chr '\r', chr '\n', chr ':'], b ≠ c := by
    rintro b hb c hc rfl
    obtain ⟨h₁, h₂⟩ := apart b hc
    rcases sign b hb with h | h
    · exact h₁ h
    · omega
  refine ⟨fun b hb => ⟨hne b hb _ (by simp), hne b hb _ (by simp), hne b hb _ (by simp)⟩, fun h => ?_⟩
  exact hne _ (List.mem_of_mem_head? h) _ (by simp) rfl

end

/-! ### One channel -/

/-- What the senders rely on: the state can be told, and its user is the client's, whose hostmask
and whose network's name are one word each. -/
structure Audience (nick hm : Str) (origin : Option Str) (S : NetworkState) : Prop where
  tellable : Tellable S
  me : nameOf S meRef = some nick
  front : upToBang hm = nick
  bang : chr '!' ∈ hm
  mask : chr ' ' ∉ hm
  origin : ∀ o ∈ origin, chr ' ' ∉ o

/-- Every name on a channel fits on a 353 line. -/
def NamesFit (origin : Option Str) (nick : Str) (S : NetworkState) (c : Ref) : Prop :=
  ∀ ch, S.chanHeap c = some ch → ∀ m ∈ ch.nicks, ∀ w, MemberArg S m w → Fits origin nick ch w

theorem MemberArg.unique {S : NetworkState} {m : Ref} {w w' : Str} (h : MemberArg S m w)
    (h' : MemberArg S m w') : w = w' := by
  obtain ⟨cn, a, p, hcn, ha, hp, rfl⟩ := h
  obtain ⟨cn', a', p', hcn', ha', hp', rfl⟩ := h'
  rw [hcn] at hcn'
  cases hcn'
  rw [ha] at ha'
  cases ha'
  rw [hp] at hp'
  cases hp'
  rfl

section
variable {S : NetworkState} {nick hm : Str} {origin : Option Str} {O₀ : NetworkState}
  {done : List Ref} {c₀ : Ref} {ch₀ : ChannelState} {c : Client} {now : Long}

theorem Audience.spelled (ha : Audience nick hm origin S) : NickSpelled nick :=
  ha.tellable.nicks meRef nick (.inl rfl) ha.me

theorem Telling.join (ha : Audience nick hm origin S) (hc : ChannelSpelled ch₀)
    (hno : Unused S done ch₀.name)
    (h : Telling nick hm origin O₀ (fun O => View nick hm S O done O.channels) c) :
    Total (clientSendArgsEx now c (some hm) [some (str "JOIN"), some ch₀.name]) fun r =>
      r.1 = true ∧ Telling nick hm origin O₀ (Spelling nick hm S done ch₀ none none []) r.2 := by
  refine h.survives (joinLine_told ha.mask hc.name) (fun M hM => ?_) fun O hO =>
    hO.joinLine ha.tellable ha.me ha.front hc hno
  have hk : commandOf (vircParseLine (some hm) [some (str "JOIN"), some ch₀.name]) = some .join :=
    commandOf_known (n := 1) rfl rfl (by simp [vaList])
  exact hM.join ha.spelled.nonempty ha.bang ha.front ha.spelled.prefixless hk rfl now

/-- A response is sent to the user. -/
theorem Telling.response {Obs Obs' : NetworkState → Prop} (h : Telling nick hm origin O₀ Obs c)
    {n : ℕ} (hn : n ≠ 0) {ap : List (Option Str)} (hl : Told (vircParseResponse origin nick n ap))
    (hM : ∀ M, Hosting nick hm M →
      Total (stateStep M (now, vircParseResponse origin nick n ap)) (Hosting nick hm))
    (hO : ∀ O, Obs O → Total (stateStep O (now, vircParseResponse origin nick n ap)) Obs') :
    Total (clientSendResponse now c n ap) fun r =>
      r.1 = true ∧ Telling nick hm origin O₀ Obs' r.2 := by
  rw [clientSendResponse, if_neg hn, h.target, ok_bind, h.origin]
  exact h.survives hl hM hO

theorem Telling.topicText (ha : Audience nick hm origin S) (hc : ChannelSpelled ch₀)
    (hno : Unused S done ch₀.name)
    (h : Telling nick hm origin O₀ (Spelling nick hm S done ch₀ none none []) c) :
    Total (sendTopicText now c ch₀ false) fun r => r.1 = true ∧
      Telling nick hm origin O₀ (Spelling nick hm S done ch₀ ch₀.topic none []) r.2 := by
  unfold sendTopicText
  cases ht : ch₀.topic with
  | none => exact ⟨rfl, h⟩
  | some w =>
      refine h.response (by decide)
        (topicLine_told ha.origin ha.spelled.bare hc.name (hc.topic w ht)) (fun M hM => ?_)
        fun O hO => hO.topicLine hno nick w
      have hk : commandOf (vircParseResponse origin nick 332 [some ch₀.name, some w]) =
          some .c332 := commandOf_known (n := 3) rfl rfl (by simp [vaList])
      exact hM.quiet hk rfl now (handle332_total hM.whole (commandOf_argc hk))

theorem Telling.topicSetter (ha : Audience nick hm origin S) (hc : ChannelSpelled ch₀)
    (hno : Unused S done ch₀.name)
    (h : Telling nick hm origin O₀ (Spelling nick hm S done ch₀ ch₀.topic none []) c) :
    Total (sendTopicSetter now c ch₀) fun r => r.1 = true ∧
      Telling nick hm origin O₀ (Spelling nick hm S done ch₀ ch₀.topic (toldSetter ch₀) []) r.2 := by
  unfold sendTopicSetter
  split
  · next hset =>
    obtain ⟨w, hw⟩ := Option.ne_none_iff_exists'.mp hset.2
    have hline : [some ch₀.name, ch₀.topicSetBy, some (decimalInt ch₀.topicSetTime.1)] =
        [some ch₀.name, some w, some (decimalInt ch₀.topicSetTime.1)] := by rw [hw]
    have htold : toldSetter ch₀ = some w := by rw [toldSetter, if_neg hset.1, hw]
    rw [hline, htold]
    refine h.response (by decide) (setterLine_told ha.origin ha.spelled.bare hc.name
      (hc.setter w hw) (decimalInt_bare _)) (fun M hM => ?_) fun O hO => hO.setterLine hno nick w _
    have hk : commandOf (vircParseResponse origin nick 333
        [some ch₀.name, some w, some (decimalInt ch₀.topicSetTime.1)]) = some .c333 :=
      commandOf_known (n := 3) rfl rfl (by simp [vaList])
    refine hM.quiet hk rfl now (handle333_total hM.whole (commandOf_argc hk) fun _ => ?_)
    simp [vircParseResponse, vaList, IrcLine.argc]
  · next hset =>
    have htold : toldSetter ch₀ = none := by
      rw [toldSetter]
      split
      · rfl
      · next ht => exact not_not.mp fun hby => hset ⟨ht, hby⟩
    rw [htold]
    exact ⟨rfl, h⟩

/-- How the loop writes a member, and how the member is listed. -/
theorem Telling.memberArg {Obs : NetworkState → Prop} (ha : Audience nick hm origin S)
    (hc₀ : c₀ ∈ S.channels) (hch₀ : S.chanHeap c₀ = some ch₀)
    (h : Telling nick hm origin O₀ Obs c) {m : Ref} (hm : m ∈ ch₀.nicks) :
    ∃ w, memberArg S c m = .ok (some w) ∧ MemberArg S m w := by
  obtain ⟨M, hM, hh⟩ := h.hosting
  obtain ⟨cn, a, hcn, hk, hname, -⟩ := ha.tellable.member hc₀ hch₀ hm
  obtain ⟨g, hg, hga⟩ := Option.bind_eq_some_iff.mp hname
  obtain ⟨p, hp, -⟩ := getPrefixFromModes_init cn.modes
  refine ⟨p.toList ++ a, ?_, cn, a, p, hcn, hname, ha.tellable.info ▸ hp, rfl⟩
  rw [Ctrlproxy.memberArg, NetworkState.memb_eq hcn, ok_bind, hM]
  dsimp only
  rw [hh.info, hp, ok_bind, NetworkState.nick_eq hg, ok_bind, hga]
  cases p <;> rfl

/-- A listed name is one word. -/
theorem MemberArg.word (hS : Tellable S) (hc₀ : c₀ ∈ S.channels) (hch₀ : S.chanHeap c₀ = some ch₀)
    {m : Ref} (hm : m ∈ ch₀.nicks) {w : Str} (hw : MemberArg S m w) : Word w ∧ w ≠ [] := by
  obtain ⟨cn, a, p, hcn, ha, hp, rfl⟩ := hw
  obtain ⟨cn', a', hcn', -, ha', hspell⟩ := hS.member hc₀ hch₀ hm
  rw [hcn] at hcn'
  cases hcn'
  rw [ha] at ha'
  cases ha'
  obtain ⟨p', hp', hprefix, -⟩ := getPrefixFromModes_init cn.modes
  have hpp : p = p' := by
    rw [hS.info, hp'] at hp
    exact (Except.ok.inj hp).symm
  refine ⟨fun b hb => ?_, by simp [hspell.nonempty]⟩
  rcases List.mem_append.mp hb with hb | hb
  · have hbp := hprefix b (by rw [← hpp]; exact Option.mem_toList.mp hb)
    rcases isPrefix_init.mp hbp with rfl | rfl <;> decide
  · exact hspell.bare.1 b hb

/-- A 353 line is told. -/
theorem Telling.names {topic setter : Option Str} {taken more rest : List Ref}
    (ha : Audience nick hm origin S) (hc₀ : c₀ ∈ S.channels) (hch₀ : S.chanHeap c₀ = some ch₀)
    (hc : ChannelSpelled ch₀) (hno : Unused S done ch₀.name) {n : Str} {ns : List Str}
    (hsplit : ch₀.nicks = taken ++ more ++ rest) (hws : List.Forall₂ (MemberArg S) more (n :: ns))
    (h : Telling nick hm origin O₀ (Spelling nick hm S done ch₀ topic setter taken) c) :
    Total (clientSendLine now c (namesLine origin nick ch₀ n ns)) fun r => r.1 = true ∧
      Telling nick hm origin O₀ (Spelling nick hm S done ch₀ topic setter (taken ++ more)) r.2 := by
  have words : ∀ x ∈ n :: ns, Word x ∧ x ≠ [] := by
    intro x hx
    obtain ⟨i, hi, rfl⟩ := List.mem_iff_getElem.mp hx
    have hi' : i < more.length := hws.length_eq ▸ hi
    refine (hws.get hi' hi).word ha.tellable hc₀ hch₀ ?_
    rw [hsplit]
    exact List.mem_append_left _ (List.mem_append_right _ (List.getElem_mem hi'))
  have hspace : ∀ x ∈ n :: ns, chr ' ' ∉ x := fun x hx hb => ((words x hx).1 _ hb).1 rfl
  have hhead : BareHead origin nick ch₀ := ⟨ha.origin, ha.spelled.bare, hc.mode, hc.name⟩
  have hwire : received (namesLine origin nick ch₀ n ns) = some (namesWire origin nick ch₀ n ns) :=
    namesLine_wire hhead fun x hx => (words x hx).1.noEol
  have hstrip : strippedLine (namesLine origin nick ch₀ n ns) = namesLine origin nick ch₀ n ns := rfl
  refine h.send (fun M hM => ?_) fun O hO => ?_
  · have hk : commandOf (namesLine origin nick ch₀ n ns) = some .namreply :=
      commandOf_known (n := 4) rfl rfl (by simp)
    refine hM.names hk ?_ now
    -- in memory the line lists its first name, behind a colon
    intro w hw name hname
    have hw' : w = chr ':' :: n := (Option.some.inj hw).symm
    have hsingle : gStrsplit (chr ':' :: n) (chr ' ') = [chr ':' :: n] := by
      rw [gStrsplit, if_neg (List.cons_ne_nil _ _), pieces_single]
      intro hb
      rcases List.mem_cons.mp hb with hb | hb
      · exact absurd hb (by decide)
      · exact hspace n List.mem_cons_self hb
    rw [hw', hsingle] at hname
    rw [List.mem_singleton.mp hname, hM.info]
    have hp : isPrefix (chr ':' :: n).head? (some networkInfoInit) = false := by
      rw [List.head?_cons]
      decide
    rw [stripPrefix_of_not hp, hp]
  · rw [hstrip, mirrorStep]
    dsimp only
    rw [hwire]
    exact hO.namesLine ha.tellable hno hc₀ hch₀ hws hsplit (words n List.mem_cons_self).2 hspace nick

theorem Telling.endNames (ha : Audience nick hm origin S) (hch₀ : S.chanHeap c₀ = some ch₀)
    (hc : ChannelSpelled ch₀) (hno : Unused S done ch₀.name) (hne : ch₀.nicks ≠ [])
    (h : Telling nick hm origin O₀
      (Spelling nick hm S done ch₀ ch₀.topic (toldSetter ch₀) ch₀.nicks) c) :
    Total (clientSendResponse now c 366 [some ch₀.name, some (str "End of /NAMES list")]) fun r =>
      r.1 = true ∧ Telling nick hm origin O₀
        (fun O => View nick hm S O (done ++ [c₀]) O.channels) r.2 := by
  refine h.response (by decide)
    (endLine_told ha.origin ha.spelled.bare hc.name (by decide)) (fun M hM => ?_)
    fun O hO => hO.endLine hno hch₀ hne nick _
  have hk : commandOf (vircParseResponse origin nick 366
      [some ch₀.name, some (str "End of /NAMES list")]) = some .endNames :=
    commandOf_known (n := 2) rfl rfl (by simp [vaList])
  exact hM.quiet hk rfl now (handleEndNames_total hM.whole (commandOf_argc hk))

/-- `client_send_nameslist` lists all members, or aborts at a name that does not fit. -/
theorem clientSendNameslist_ensures (ha : Audience nick hm origin S) (hc₀ : c₀ ∈ S.channels)
    (hch₀ : S.chanHeap c₀ = some ch₀) (hc : ChannelSpelled ch₀) (hno : Unused S done ch₀.name)
    (hne : ch₀.nicks ≠ []) (h : Telling nick hm origin O₀
      (Spelling nick hm S done ch₀ ch₀.topic (toldSetter ch₀) []) c) :
    Ensures (clientSendNameslist now c S c₀) (fun r => NamesFit origin nick S c₀ ∧ r.1 = true ∧
        Telling nick hm origin O₀ (fun O => View nick hm S O (done ++ [c₀]) O.channels) r.2)
      (fun _ => ¬ NamesFit origin nick S c₀) := by
  have loop : Ensures (namesLoop now S ch₀ ch₀.nicks none c)
      (fun r => (∀ m ∈ ch₀.nicks, ∀ w, MemberArg S m w → Fits origin nick ch₀ w) ∧ r.1 = true ∧
        Telling nick hm origin O₀
          (Spelling nick hm S done ch₀ ch₀.topic (toldSetter ch₀) ch₀.nicks) r.2)
      (fun _ => ∃ m ∈ ch₀.nicks, ∃ w, MemberArg S m w ∧ ¬ Fits origin nick ch₀ w) := by
    have hfill : Filling origin nick ch₀ none [] := rfl
    refine namesLoop_ensures (I := fun taken c => Telling nick hm origin O₀
      (Spelling nick hm S done ch₀ ch₀.topic (toldSetter ch₀) taken) c) ?_ ?_ ?_ hfill .nil h rfl
    · exact fun _ _ h => ⟨h.origin, h.target, fun m hm => h.memberArg ha hc₀ hch₀ hm⟩
    · exact fun _ _ _ => MemberArg.unique
    · exact fun _ _ _ _ _ _ h hsplit hws => h.names ha hc₀ hch₀ hc hno hsplit hws
  have fits : NamesFit origin nick S c₀ ↔
      ∀ m ∈ ch₀.nicks, ∀ w, MemberArg S m w → Fits origin nick ch₀ w := by
    refine ⟨fun h => h ch₀ hch₀, fun h ch hch => ?_⟩
    rw [hch₀] at hch
    cases hch
    exact h
  rw [clientSendNameslist, NetworkState.chan_eq hch₀, ok_bind]
  refine Ensures.bind (loop.mono (fun _ => id) ?_) ?_
  · rintro - ⟨m, hm, w, hw, hfit⟩ hall
    exact hfit (fits.mp hall m hm w hw)
  · rintro r ⟨hall, htrue, hlisted⟩
    rw [andThen, if_pos htrue]
    exact Ensures.mono (hlisted.endNames ha hch₀ hc hno hne) (fun r hr => ⟨fits.mpr hall, hr⟩)
      fun _ => False.elim

/-- `client_send_channel_state` tells a channel. -/
theorem clientSendChannelState_ensures (ha : Audience nick hm origin S) (hc₀ : c₀ ∈ S.channels)
    (hch₀ : S.chanHeap c₀ = some ch₀) (hno : Unused S done ch₀.name)
    (h : Telling nick hm origin O₀ (fun O => View nick hm S O done O.channels) c) :
    Ensures (clientSendChannelState now c S c₀) (fun r => NamesFit origin nick S c₀ ∧ r.1 = true ∧
        Telling nick hm origin O₀ (fun O => View nick hm S O (done ++ [c₀]) O.channels) r.2)
      (fun _ => ¬ NamesFit origin nick S c₀) := by
  obtain ⟨hc, hne⟩ := ha.tellable.channels c₀ hc₀ ch₀ hch₀
  rw [clientSendChannelState, NetworkState.chan_eq hch₀, ok_bind, h.hostmask, ok_bind]
  refine andThen_bind ((h.join ha hc hno).mono (fun _ hr => hr) fun _ => False.elim) fun c h => ?_
  have topic : Total (clientSendTopic now c S c₀ false) fun r => r.1 = true ∧
      Telling nick hm origin O₀
        (Spelling nick hm S done ch₀ ch₀.topic (toldSetter ch₀) []) r.2 := by
    rw [clientSendTopic, NetworkState.chan_eq hch₀, ok_bind]
    exact andThen_bind (h.topicText ha hc hno) fun c h => h.topicSetter ha hc hno
  exact andThen_bind (topic.mono (fun _ hr => hr) fun _ => False.elim) fun c h =>
    clientSendNameslist_ensures ha hc₀ hch₀ hc hno hne h

/-- The loop of `client_send_state` tells all channels. -/
theorem sendChannels_ensures (ha : Audience nick hm origin S) {rs : List Ref}
    (hsplit : S.channels = done ++ rs)
    (h : Telling nick hm origin O₀ (fun O => View nick hm S O done O.channels) c) :
    Ensures (sendChannels now S rs c)
      (fun r => (∀ x ∈ rs, NamesFit origin nick S x) ∧ r.1 = true ∧
        Telling nick hm origin O₀ (fun O => View nick hm S O S.channels O.channels) r.2)
      (fun _ => ¬ ∀ x ∈ rs, NamesFit origin nick S x) := by
  induction rs generalizing done c with
  | nil =>
      rw [List.append_nil] at hsplit
      exact ⟨nofun, rfl, hsplit ▸ h⟩
  | cons x rs ih =>
      have hx : x ∈ S.channels := hsplit ▸ List.mem_append_right _ List.mem_cons_self
      obtain ⟨ch, hch, -⟩ := ha.tellable.named.graph.chan_live x hx
      have hno : Unused S done ch.name := by
        intro y hy chy hchy e
        have hyx : y = x := ha.tellable.distinct y (hsplit ▸ List.mem_append_left _ hy) x hx chy ch
          hchy hch e
        have hnodup := ha.tellable.named.graph.channels_nodup
        rw [hsplit] at hnodup
        exact (List.nodup_append.mp hnodup).2.2 y hy x List.mem_cons_self hyx
      have hnext : S.channels = done ++ [x] ++ rs := by
        rw [hsplit, List.append_assoc, List.singleton_append]
      rw [sendChannels]
      refine Ensures.bind ((clientSendChannelState_ensures ha hx hch hno h).mono (fun _ => id)
        fun _ hfit hall => hfit (hall x List.mem_cons_self)) ?_
      rintro r ⟨hfit, htrue, htold⟩
      rw [andThen, if_pos htrue]
      refine (ih hnext htold).mono (fun r' hr' => ⟨fun y hy => ?_, hr'.2⟩) fun _ hno hall => ?_
      · rcases List.mem_cons.mp hy with rfl | hy
        · exact hfit
        · exact hr'.1 y hy
      · exact hno fun y hy => hall y (List.mem_cons_of_mem _ hy)

end

/-! ### The user's own modes -/

theorem mode2string_clear : mode2string modesClear = none := by
  have hbody : mode2stringBody modesClear = [] := by simp [mode2stringBody, modesClear]
  rw [mode2string, hbody]
  rfl

theorem mode2string_plus {modes : Modes} {mode : Str} (h : mode2string modes = some mode) :
    mode.head? = some (chr '+') := by
  unfold mode2string at h
  split at h
  · cases h
  · split at h
    · cases h
    · cases h
      rfl

theorem foldByte_plus {b : Byte} (h : Casemapping.unknown.foldByte b = chr '+') : b = chr '+' := by
  unfold Casemapping.foldByte at h
  split at h
  · next hb =>
    have h43 : b.1 + 32 = 43 := congrArg Subtype.val h
    omega
  · exact h

section
variable {S O O' : NetworkState} {nick hm : Str} {done acc : List Ref} {now : Long}

/-- No nick that can be told begins with a plus. -/
theorem View.no_plus (h : View nick hm S O done acc) (hS : Tellable S) {a : Str}
    (ha : a.head? = some (chr '+')) {g : Ref} : findNetworkNick O a ≠ .ok (some g) := by
  intro hfind
  have hmap : casemapOf (some O.info) = .unknown := by rw [h.info]; rfl
  obtain ⟨hk, b, hb, e⟩ := findNetworkNick_some hmap hfind
  obtain ⟨g₀, b', hk₀, hb₀, hb'⟩ := h.names g hk
  rw [hb] at hb'
  cases hb'
  have hspell := hS.nicks g₀ b hk₀ hb₀
  obtain ⟨x, b', rfl⟩ := List.exists_cons_of_ne_nil hspell.nonempty
  obtain ⟨a', rfl⟩ := List.head?_eq_some_iff.mp ha
  have hx : x = chr '+' := by
    refine foldByte_plus ?_
    have hplus : Casemapping.unknown.foldByte (chr '+') = chr '+' := by decide
    simp only [Casemapping.fold, List.map_cons, List.cons.injEq] at e
    exact e.1.trans hplus
  have := hspell.prefixless
  rw [List.head?_cons, isPrefix_init.mpr (.inr hx)] at this
  cases this

/-- What is read of a mode string begins with its plus. -/
theorem received_modeLine {mode : Str} (hnick : chr ' ' ∉ nick)
    (hmode : mode.head? = some (chr '+')) :
    ∃ a as c, received (vircParseLine (some nick) [some (str "MODE"), some mode]) =
      some ⟨some nick, str "MODE" :: a :: as, c⟩ ∧ a.head? = some (chr '+') := by
  obtain ⟨w, rfl⟩ := List.head?_eq_some_iff.mp hmode
  have htext : ircLineStringNl (vircParseLine (some nick) [some (str "MODE"), some (chr '+' :: w)]) =
      chr ':' :: nick ++ chr ' ' :: (str "MODE" ++ chr ' ' :: chr '+' :: (w ++ str "\r\n")) := by
    have hcolon : requiresColon
        (vircParseLine (some nick) [some (str "MODE"), some (chr '+' :: w)]) = false := rfl
    rw [ircLineStringNl, ircLineString, hcolon]
    simp [vircParseLine, vaList, IrcLine.argc, printArgs]
  have hchar : parseArgs true [] (chr '+' :: (w ++ str "\r\n")) =
      parseArgs true [chr '+'] (w ++ str "\r\n") :=
    parseArgs_char true [] _ (fun _ => by decide) (by decide)
  obtain ⟨a, as, hargs, -, -, hfront, -⟩ :=
    parseArgs_spelled [chr '+'] (w ++ str "\r\n") (by decide)
  obtain ⟨a', rfl⟩ := hfront
  have hsplit : (parseArgs true [] (str "MODE" ++ chr ' ' :: chr '+' :: (w ++ str "\r\n"))).1 =
      str "MODE" :: ([chr '+'] ++ a') :: as := by
    rw [parseArgs_word [] (str "MODE") _ (by decide), List.nil_append,
      parseArgs_space _ _ (by rw [List.head?_cons]; decide), hchar, hargs]
  have hparse := ircParseLine_origin (t := str "MODE" ++ chr ' ' :: chr '+' :: (w ++ str "\r\n"))
    hnick (show some (chr 'M') ≠ some (chr ' ') by decide)
  rw [hsplit] at hparse
  exact ⟨_, as, _, (congrArg ircParseLine htext).trans hparse, rfl⟩

/-- The MODE line about the user names no target: nobody's modes change. -/
theorem View.modeLine (h : View nick hm S O done acc) (hS : Tellable S) (hnick : chr ' ' ∉ nick)
    {mode : Str} (hmode : mode.head? = some (chr '+'))
    (hstep : mirrorStep O (now, vircParseLine (some nick) [some (str "MODE"), some mode]) = .ok O') :
    O' = O := by
  obtain ⟨a, as, c, hrec, ha⟩ := received_modeLine hnick hmode
  rw [mirrorStep] at hstep
  dsimp only at hstep
  rw [hrec] at hstep
  cases as with
  | nil =>
      have hk : commandOf ⟨some nick, [str "MODE", a], c⟩ = none := rfl
      have hnone : stateStep O (now, ⟨some nick, [str "MODE", a], c⟩) = .ok O := stateStep_none hk
      exact (Except.ok.inj (hnone.symm.trans hstep)).symm
  | cons b as =>
      -- behind a space the mode string goes on, and its beginning is taken for a nick
      have hk : commandOf ⟨some nick, str "MODE" :: a :: b :: as, c⟩ = some .mode :=
        commandOf_known (n := 2) rfl rfl (by simp)
      have hhandler : stateStep O (now, ⟨some nick, str "MODE" :: a :: b :: as, c⟩) =
          handleMode now O ⟨some nick, str "MODE" :: a :: b :: as, c⟩ :=
        stateStep_handler (k := .mode) hk
      dsimp only at hstep
      rw [hhandler, handleMode] at hstep
      obtain ⟨target, htarget, hstep⟩ := bind_eq_ok hstep
      obtain rfl : a = target := by
        have harg : IrcLine.argStr ⟨some nick, str "MODE" :: a :: b :: as, c⟩ 1 = .ok a := by
          simp [IrcLine.argStr, IrcLine.argc]
        rw [harg] at htarget
        exact Except.ok.inj htarget
      obtain ⟨change, -, hstep⟩ := bind_eq_ok hstep
      have hno : isChannelname a O.info = .ok false := by
        obtain ⟨a', rfl⟩ := List.head?_eq_some_iff.mp ha
        rw [h.info]
        rfl
      rw [hno, ok_bind, if_neg Bool.false_ne_true] at hstep
      obtain ⟨⟨nn, O₁⟩, hadd, -⟩ := bind_eq_ok hstep
      rw [Ctrlproxy.findAddNetworkNick] at hadd
      obtain ⟨r, hr, hadd⟩ := bind_eq_ok hadd
      cases r with
      | some g => exact absurd hr (h.no_plus hS ha)
      | none =>
          have hp : isPrefix a.head? (some O.info) = true := by
            rw [ha, h.info]
            decide
          dsimp only at hadd
          rw [if_pos hp] at hadd
          cases hadd

end

/-! ### The whole state -/

/-- The observer's state `O` shows the channels of `S` in order, each with its topic, the setter of
the topic, its character and its members, and the modes of the user. -/
structure Transferred (S O : NetworkState) : Prop where
  channels : List.Forall₂ (ChannelTold ChannelState.topicSetBy S O) S.channels O.channels
  modes : ∃ me me', S.nickHeap meRef = some me ∧ O.nickHeap meRef = some me' ∧ me'.modes = me.modes

/-- Every topic that was set was set at a time. -/
def SettersDated (S : NetworkState) : Prop :=
  ∀ c ∈ S.channels, ∀ ch, S.chanHeap c = some ch → ch.topicSetBy ≠ none → ch.topicSetTime ≠ long0

section
variable {S O : NetworkState}

/-- What is told of the channels is all of them, when the setters are. -/
theorem channelsTold_iff (h : List.Forall₂ (ChannelTold toldSetter S O) S.channels O.channels) :
    List.Forall₂ (ChannelTold ChannelState.topicSetBy S O) S.channels O.channels ↔
      SettersDated S := by
  constructor
  · intro h' c hc ch hch hset htime
    obtain ⟨x, -, ⟨ch₁, ch', hch₁, hch', -, -, e, -⟩, ch₂, ch'', hch₂, hch'', -, -, e', -⟩ :=
      forall₂_both h h' hc
    rw [hch] at hch₁ hch₂
    cases hch₁
    cases hch₂
    rw [hch'] at hch''
    cases hch''
    rw [e, toldSetter, if_pos htime] at e'
    exact hset e'.symm
  · intro hdated
    obtain ⟨hlen, hz⟩ := List.forall₂_iff_zip.mp h
    refine List.forall₂_iff_zip.mpr ⟨hlen, fun hab => ?_⟩
    obtain ⟨ch, ch', hch, hch', e₁, e₂, e₃, rest⟩ := hz hab
    refine ⟨ch, ch', hch, hch', e₁, e₂, e₃.trans ?_, rest⟩
    unfold toldSetter
    split
    · next htime =>
      by_contra hset
      exact hdated _ (List.of_mem_zip hab).1 ch hch (fun e => hset e.symm) htime
    · rfl

end

section
variable {S : NetworkState} {nick hm : Str} {origin : Option Str} {O₀ : NetworkState} {c : Client}
  {now : Long}

theorem sendOwnNick_same (ha : Audience nick hm origin S) {Obs : NetworkState → Prop}
    (h : Telling nick hm origin O₀ Obs c) : sendOwnNick now c S = .ok (true, c) := by
  obtain ⟨M, hM, hh⟩ := h.hosting
  obtain ⟨own, hown, hownick, -⟩ := hh.me
  obtain ⟨me, hme, hnick⟩ := Option.bind_eq_some_iff.mp ha.me
  rw [sendOwnNick, hM]
  dsimp only
  rw [NetworkState.nick_eq hme, ok_bind, NetworkState.nick_eq hown, ok_bind, hnick, hownick]
  dsimp only
  rw [if_neg (not_not.mpr rfl)]
  rfl

/-- The line about the user's modes tells nothing. -/
theorem Telling.ownModes (ha : Audience nick hm origin S) {me : NetworkNick}
    (hme : S.nickHeap meRef = some me)
    (h : Telling nick hm origin O₀ (fun O => View nick hm S O S.channels O.channels) c) :
    Total (match mode2string me.modes with
        | none => pure (true, c)
        | some mode => clientSendArgsEx now c me.nick [some (str "MODE"), some mode])
      fun r => r.1 = true ∧ ∃ O, View nick hm S O S.channels O.channels ∧
        (me.modes = modesClear → mirror O₀ r.2.sent = .ok O) ∧
        ∀ O', mirror O₀ r.2.sent = .ok O' → O' = O := by
  obtain ⟨O, hsent, hv⟩ := h.observed
  cases hmode : mode2string me.modes with
  | none =>
      refine ⟨rfl, O, hv, fun _ => hsent, fun O' hO' => ?_⟩
      rw [hsent] at hO'
      exact (Except.ok.inj hO').symm
  | some mode =>
      obtain ⟨M, hM, -⟩ := h.hosting
      have hnick : me.nick = some nick := (nameOf_eq hme).symm.trans ha.me
      have hk : commandOf (vircParseLine (some nick) [some (str "MODE"), some mode]) = none := rfl
      have hstrip : strippedLine (vircParseLine (some nick) [some (str "MODE"), some mode]) =
          vircParseLine (some nick) [some (str "MODE"), some mode] := rfl
      have hstep : stateStep M (now, vircParseLine (some nick) [some (str "MODE"), some mode]) =
          .ok M := stateStep_none hk
      dsimp only
      rw [hnick, clientSendArgsEx, clientSendLine_state h.connected hM, hstep, hstrip]
      refine ⟨rfl, O, hv, fun hclear => ?_, fun O' hO' => ?_⟩
      · rw [hclear, mode2string_clear] at hmode
        cases hmode
      · dsimp only at hO'
        rw [mirror_snoc, hsent, ok_bind] at hO'
        exact hv.modeLine ha.tellable (fun hb => (ha.spelled.bare.1 _ hb).1 rfl)
          (mode2string_plus hmode) hO'

/-- **What `client_send_state` tells**: the channels arrive and the user's modes stay as they are, or
it aborts at a name that does not fit. -/
theorem clientSendState_ensures (ha : Audience nick hm origin S) {me : NetworkNick}
    (hme : S.nickHeap meRef = some me)
    (h : Telling nick hm origin O₀ (fun O => View nick hm S O [] O.channels) c) :
    Ensures (clientSendState now c S) (fun r => (∀ x ∈ S.channels, NamesFit origin nick S x) ∧
        r.1 = true ∧ ∃ O, View nick hm S O S.channels O.channels ∧
          (me.modes = modesClear → mirror O₀ r.2.sent = .ok O) ∧
          ∀ O', mirror O₀ r.2.sent = .ok O' → O' = O)
      (fun _ => ¬ ∀ x ∈ S.channels, NamesFit origin nick S x) := by
  rw [clientSendState, sendOwnNick_same ha h, ok_bind, andThen, if_pos rfl]
  refine Ensures.bind (sendChannels_ensures ha rfl h) ?_
  rintro r ⟨hfit, htrue, htold⟩
  rw [andThen, if_pos htrue, NetworkState.nick_eq hme, ok_bind]
  exact Ensures.mono (htold.ownModes ha hme) (fun _ hr => ⟨hfit, hr⟩) fun _ => False.elim

end

/-! ### A fresh client -/

/-- A state whose nicks and channels are spelled as they should be, whose channels are told apart by
their names, and whose user is on all of them. -/
structure StateSpelled (S : NetworkState) : Prop where
  nicks : ∀ g, Known S g → ∀ a, nameOf S g = some a → NickSpelled a
  channels : ∀ c ∈ S.channels, ∀ ch, S.chanHeap c = some ch → ChannelSpelled ch
  distinct : ∀ c ∈ S.channels, ∀ c' ∈ S.channels, ∀ ch ch', S.chanHeap c = some ch →
    S.chanHeap c' = some ch' → irccmp (some S.info) (some ch.name) (some ch'.name) = .ok 0 → c = c'
  present : ∀ c ∈ S.channels, ∀ ch, S.chanHeap c = some ch →
    ∃ m ∈ ch.nicks, ∃ cn, S.membHeap m = some cn ∧ cn.globalNick = meRef

theorem irccmp_init {a b : Str} (h : Casemapping.unknown.fold a = Casemapping.unknown.fold b) :
    irccmp (some networkInfoInit) (some a) (some b) = .ok 0 :=
  congrArg Except.ok ((irccmpStr_eq_zero_iff .unknown a b).mpr h)

theorem StateSpelled.tellable {S : NetworkState} (h : StateSpelled S) (hg : Graph S)
    (hinfo : S.info = networkInfoInit) (hu : NicksUnique S) : Tellable S where
  named := by
    refine ⟨hg, by rw [hinfo]; rfl, ?_, ?_, hu.members⟩
    · intro g hk
      obtain ⟨n, a, hn, ha⟩ := hu.named g hk
      exact ⟨a, (nameOf_eq hn).trans ha⟩
    · intro g g' a a' hk hk' ha ha' e
      obtain ⟨n, hn, hna⟩ := Option.bind_eq_some_iff.mp ha
      obtain ⟨n', hn', hna'⟩ := Option.bind_eq_some_iff.mp ha'
      refine hu.distinct g g' hk hk' n n' hn hn' ?_
      rw [hinfo, hna, hna']
      exact irccmp_init e
  info := hinfo
  nicks := fun g a hk ha => h.nicks g hk a ha
  channels := by
    intro c hc ch hch
    obtain ⟨m, hm, -⟩ := h.present c hc ch hch
    exact ⟨h.channels c hc ch hch, List.ne_nil_of_mem hm⟩
  distinct := by
    intro c hc c' hc' ch ch' hch hch' e
    refine h.distinct c hc c' hc' ch ch' hch hch' ?_
    rw [hinfo]
    exact irccmp_init e

/-- The hostmask of a fresh user. -/
abbrev freshHostmask (nick username hostname : Str) : Str :=
  printHostmask (some nick) (some username) (some hostname)

section
variable {S : NetworkState} {nick username hostname : Str} {origin : Option Str}

theorem networkStateInit_me (nick username hostname : Str) : ∃ me,
    (networkStateInit nick username hostname).nickHeap meRef = some me ∧ me.nick = some nick ∧
    me.hostmask = some (freshHostmask nick username hostname) ∧ me.modes = modesClear := by
  refine ⟨networkNickSetData { NetworkNick.zero with query := true } nick username hostname, rfl, rfl,
    ?_, rfl⟩
  simp [networkNickSetData, NetworkNick.zero]

/-- A fresh client may be told the state. -/
theorem Audience.fresh (hS : Tellable S) (hme : nameOf S meRef = some nick)
    (husername : chr ' ' ∉ username) (hhostname : chr ' ' ∉ hostname)
    (horigin : ∀ o ∈ origin, chr ' ' ∉ o) :
    Audience nick (freshHostmask nick username hostname) origin S := by
  have hspell := hS.nicks meRef nick (.inl rfl) hme
  refine ⟨hS, hme, ?_, ?_, ?_, horigin⟩
  · rw [freshHostmask, upToBang_printHostmask, upToBang, List.takeWhile_eq_self_iff]
    exact fun b hb => decide_eq_true fun e => hspell.bang (e ▸ hb)
  · simp [printHostmask]
  · have hbare : chr ' ' ∉ nick := fun hb => (hspell.bare.1 _ hb).1 rfl
    have h₁ : chr ' ' ≠ chr '!' := by decide
    have h₂ : chr ' ' ≠ chr '@' := by decide
    simp [printHostmask, printS, hbare, husername, hhostname, h₁, h₂]

/-- Nothing was told yet. -/
theorem Telling.start (hme : nameOf S meRef = some nick) :
    Telling nick (freshHostmask nick username hostname) origin
      (networkStateInit nick username hostname)
      (fun O => View nick (freshHostmask nick username hostname) S O [] O.channels)
      (Client.quiet true origin (networkStateInit nick username hostname)) := by
  obtain ⟨me, hme', hnick, hmask, hmodes⟩ := networkStateInit_me nick username hostname
  have hid : identityOf (networkStateInit nick username hostname) =
      some (some nick, some (freshHostmask nick username hostname)) := by
    rw [identityOf, hme', Option.map_some, hnick, hmask]
  refine ⟨rfl, rfl, ⟨_, rfl, networkStateInit_whole _ _ _, rfl, hid⟩, _, rfl, ?_⟩
  refine ⟨networkStateInit_graph _ _ _, rfl, ⟨me, hme', hnick, hmask, hmodes⟩, ?_,
    List.Subset.refl _, .nil⟩
  rintro g' (rfl | hg')
  · exact ⟨meRef, nick, .inl rfl, hme, (nameOf_eq hme').trans hnick⟩
  · cases hg'

end

/-- **A fresh client is told the state**, and reads it as it is, exactly when the user has no modes,
every setter of a topic comes with a time, and every name fits on a line. -/
theorem clientSendState_transfers {nick₀ username₀ hostname₀ : Str} {S : NetworkState}
    (hS : Reach stateStep (fun _ _ => True) (networkStateInit nick₀ username₀ hostname₀) S)
    (hinfo : S.info = networkInfoInit) (hunique : NicksUnique S) (hspelled : StateSpelled S)
    {me : NetworkNick} {nick username hostname : Str} {origin : Option Str}
    (hme : S.nickHeap meRef = some me) (hnick : me.nick = some nick)
    (husername : chr ' ' ∉ username) (hhostname : chr ' ' ∉ hostname)
    (horigin : ∀ o ∈ origin, chr ' ' ∉ o) (now : Long) :
    (∃ c O, clientSendState now
        (Client.quiet true origin (networkStateInit nick username hostname)) S = .ok (true, c) ∧
      mirror (networkStateInit nick username hostname) c.sent = .ok O ∧ Transferred S O) ↔
    me.modes = modesClear ∧ SettersDated S ∧ ∀ c ∈ S.channels, NamesFit origin nick S c := by
  have htell := hspelled.tellable (reach_graph hS) hinfo hunique
  have hname : nameOf S meRef = some nick := (nameOf_eq hme).trans hnick
  have ha : Audience nick (freshHostmask nick username hostname) origin S :=
    .fresh htell hname husername hhostname horigin
  have sent : Ensures (clientSendState now _ S) _ _ :=
    clientSendState_ensures ha hme (Telling.start hname)
  constructor
  · rintro ⟨c, O, hsend, hmir, ht⟩
    obtain ⟨hfit, -, O', hv, -, hread⟩ := sent.of_ok hsend
    obtain rfl := hread O hmir
    obtain ⟨me₁, me₂, hme₁, hme₂, hmodes⟩ := ht.modes
    obtain ⟨me', hme', -, -, hclear⟩ := hv.me
    rw [hme] at hme₁
    cases hme₁
    rw [hme₂] at hme'
    cases hme'
    exact ⟨hmodes.symm.trans hclear, (channelsTold_iff hv.told).mp ht.channels, hfit⟩
  · rintro ⟨hclear, hdated, hfit⟩
    cases hsend : clientSendState now
        (Client.quiet true origin (networkStateInit nick username hostname)) S with
    | error e =>
        rw [hsend] at sent
        exact absurd hfit sent
    | ok r =>
        obtain ⟨-, htrue, O, hv, hmir, -⟩ := sent.of_ok hsend
        obtain ⟨me', hme', -, -, hmodes⟩ := hv.me
        refine ⟨r.2, O, by rw [← htrue], hmir hclear, ?_, me, me', hme, hme', hmodes.trans hclear.symm⟩
        exact (channelsTold_iff hv.told).mpr hdated

/-! ### Two users -/

/-- A state without nicks but the user's names none twice, if no channel has two members. -/
theorem NicksUnique.alone {s : NetworkState} {me : NetworkNick} {a : Str} (hn : s.nicks = [])
    (hme : s.nickHeap meRef = some me) (ha : me.nick = some a)
    (hm : ∀ c ∈ s.channels, ∀ ch, s.chanHeap c = some ch → ∃ x, ch.nicks = [x]) : NicksUnique s where
  named := by
    rintro g (rfl | hg)
    · exact ⟨me, a, hme, ha⟩
    · rw [hn] at hg
      cases hg
  distinct := by
    rw [hn]
    rintro g g' (rfl | hg) (rfl | hg') _ _ _ _ _
    · rfl
    all_goals first | cases hg | cases hg'
  members := by
    intro c hc ch hch x hx y hy _ _ _ _ _
    obtain ⟨z, hz⟩ := hm c hc ch hch
    rw [hz] at hx hy
    rw [List.mem_singleton.mp hx, List.mem_singleton.mp hy]

/-- A state with no nick but the user's, spelled as it should be, is spelled as it should be. -/
theorem StateSpelled.alone {s : NetworkState} {me : NetworkNick} {a : Str} (hn : s.nicks = [])
    (hme : s.nickHeap meRef = some me) (ha : me.nick = some a) (hspell : NickSpelled a)
    {c : Ref} (hcs : s.channels ⊆ [c])
    (hch : c ∈ s.channels → ∀ ch, s.chanHeap c = some ch → ChannelSpelled ch ∧
      ∃ m ∈ ch.nicks, ∃ cn, s.membHeap m = some cn ∧ cn.globalNick = meRef) : StateSpelled s where
  nicks := by
    rintro g (rfl | hg) b hb
    · rw [nameOf_eq hme, ha] at hb
      cases hb
      exact hspell
    · rw [hn] at hg
      cases hg
  channels := by
    intro x hx ch hch'
    obtain rfl := List.mem_singleton.mp (hcs hx)
    exact (hch hx ch hch').1
  distinct := by
    intro x hx y hy _ _ _ _ _
    rw [List.mem_singleton.mp (hcs hx), List.mem_singleton.mp (hcs hy)]
  present := by
    intro x hx ch hch'
    obtain rfl := List.mem_singleton.mp (hcs hx)
    exact (hch hx ch hch').2

theorem me_spelled : NickSpelled (str "me") :=
  ⟨⟨by decide, by decide⟩, by decide, by decide, by decide⟩

/-- A line that announces nothing takes the user to a state where nothing is announced. -/
theorem freshUser_info {i : Input} (h4 : commandOf i.2 ≠ some .c004)
    (h5 : commandOf i.2 ≠ some .c005) {S : NetworkState} (hS : stateStep freshUser i = .ok S) :
    S.info = networkInfoInit :=
  stateStep_info (networkStateInit_graph _ _ _) h4 h5 hS

/-- A user alone on a channel is told of it. -/
theorem clientSendState_transfers_channel : ∃ S c O,
    Reach stateStep (fun _ _ => True) freshUser S ∧ S.channels.length = 1 ∧
    clientSendState long0 (Client.quiet true (some (str "net"))
      (networkStateInit (str "me") (str "u") (str "h"))) S = .ok (true, c) ∧
    mirror (networkStateInit (str "me") (str "u") (str "h")) c.sent = .ok O ∧ Transferred S O := by
  let joins : Input := inputOf ":me!u@h JOIN #c"
  have lists : (stateStep freshUser joins).map (fun S => (S.nicks, S.channels)) = .ok ([], [1]) := by
    decide +kernel
  have user : (stateStep freshUser joins).map (fun S => (S.nickHeap meRef).map (·.nick)) =
      .ok (some (some (str "me"))) := by decide +kernel
  have modes : (stateStep freshUser joins).map (fun S => (S.nickHeap meRef).map (fun n =>
      List.ofFn n.modes)) = .ok (some (List.ofFn modesClear)) := by decide +kernel
  have topic : (stateStep freshUser joins).map (fun S => (S.chanHeap 1).map (fun ch =>
      (ch.topic, ch.topicSetBy))) = .ok (some (none, none)) := by decide +kernel
  have members : (stateStep freshUser joins).map (fun S => (S.chanHeap 1).map (fun ch =>
      (ch.name, ch.mode, ch.nicks))) = .ok (some (str "#c", none, [2])) := by decide +kernel
  have member : (stateStep freshUser joins).map (fun S => (S.membHeap 2).map (fun cn =>
      (cn.globalNick, (getPrefixFromModes networkInfoInit cn.modes).toOption))) =
      .ok (some (meRef, some none)) := by decide +kernel
  obtain ⟨S, hS, hlists⟩ := map_eq_ok lists
  rw [hS] at user modes topic members member
  obtain ⟨hn, hcs⟩ := Prod.mk.inj hlists
  obtain ⟨me, hme, hnick⟩ := Option.map_eq_some_iff.mp (Except.ok.inj user)
  obtain ⟨cn, hcn, hboth⟩ := Option.map_eq_some_iff.mp (Except.ok.inj member)
  obtain ⟨ch, hch, hlist⟩ := Option.map_eq_some_iff.mp (Except.ok.inj members)
  obtain ⟨ch', hch', htopics⟩ := Option.map_eq_some_iff.mp (Except.ok.inj topic)
  obtain ⟨me', hme', hmodes⟩ := Option.map_eq_some_iff.mp (Except.ok.inj modes)
  obtain rfl := Option.some.inj (hch.symm.trans hch')
  obtain rfl := Option.some.inj (hme.symm.trans hme')
  obtain ⟨hglobal, hprefix⟩ := Prod.mk.inj hboth
  obtain ⟨htopic, hsetter⟩ := Prod.mk.inj htopics
  obtain ⟨hname, hlist⟩ := Prod.mk.inj hlist
  obtain ⟨hmode, hnicks⟩ := Prod.mk.inj hlist
  have hinfo : S.info = networkInfoInit :=
    freshUser_info (by decide +kernel) (by decide +kernel) hS
  have only : ∀ {c x}, c ∈ S.channels → S.chanHeap c = some x → c = 1 ∧ x = ch := by
    intro c x hc hx
    rw [hcs] at hc
    obtain rfl := List.mem_singleton.mp hc
    exact ⟨rfl, Option.some.inj (hx.symm.trans hch)⟩
  have unique : NicksUnique S := by
    refine .alone hn hme hnick fun c hc x hx => ?_
    obtain ⟨-, rfl⟩ := only hc hx
    exact ⟨2, hnicks⟩
  have spelled : StateSpelled S := by
    have hsub : S.channels ⊆ [1] := by simp [hcs]
    refine .alone hn hme hnick me_spelled hsub fun hc x hx => ?_
    obtain ⟨-, rfl⟩ := only hc hx
    refine ⟨⟨?_, ?_, ?_, ?_, ?_, ?_⟩, 2, by simp [hnicks], cn, hcn, hglobal⟩
    · rw [hname]; exact ⟨by decide, by decide⟩
    · rw [hname]; decide
    · rw [hname]; decide
    · rw [htopic]; nofun
    · rw [hsetter]; nofun
    · rw [hmode]; exact ⟨by decide, by decide⟩
  have dated : SettersDated S := by
    intro c hc x hx hset
    obtain ⟨-, rfl⟩ := only hc hx
    exact absurd hsetter hset
  have fits : ∀ c ∈ S.channels, NamesFit (some (str "net")) (str "me") S c := by
    intro c hc x hx m hm w hw
    obtain ⟨-, rfl⟩ := only hc hx
    rw [hnicks] at hm
    obtain rfl := List.mem_singleton.mp hm
    have hw' : MemberArg S 2 (str "me") := by
      refine ⟨cn, str "me", none, hcn, hglobal ▸ (nameOf_eq hme).trans hnick, ?_, rfl⟩
      obtain ⟨p, hp, -⟩ := getPrefixFromModes_init cn.modes
      rw [hp] at hprefix
      rw [hinfo, hp, Option.some.inj hprefix]
    rw [hw.unique hw', Fits, namesHead, hname, hmode]
    decide
  have told := clientSendState_transfers (.step .refl trivial hS) hinfo unique spelled hme hnick
    (by decide : chr ' ' ∉ str "u") (by decide : chr ' ' ∉ str "h")
    (by rintro o ⟨⟩; decide : ∀ o ∈ some (str "net"), chr ' ' ∉ o) long0
  obtain ⟨c, O, hsend, hmir, ht⟩ := told.mpr ⟨List.ofFn_injective hmodes, dated, fits⟩
  exact ⟨S, c, O, .step .refl trivial hS, by rw [hcs]; rfl, hsend, hmir, ht⟩

/-- The modes of the user are not told. -/
theorem own_modes_not_told : ¬ ∀ (nick₀ username₀ hostname₀ : Str) (S : NetworkState),
    Reach stateStep (fun _ _ => True) (networkStateInit nick₀ username₀ hostname₀) S →
    S.info = networkInfoInit → NicksUnique S → StateSpelled S →
    ∀ (me : NetworkNick) (nick username hostname : Str) (origin : Option Str) (now : Long),
      S.nickHeap meRef = some me → me.nick = some nick → me.username = some username →
      me.hostname = some hostname → chr ' ' ∉ username → chr ' ' ∉ hostname →
      (∀ o ∈ origin, chr ' ' ∉ o) →
      ∃ c O, clientSendState now
          (Client.quiet true origin (networkStateInit nick username hostname)) S = .ok (true, c) ∧
        mirror (networkStateInit nick username hostname) c.sent = .ok O ∧ Transferred S O := by
  intro claim
  let hides : Input := inputOf ":me!u@h MODE me :+i"
  have lists : (stateStep freshUser hides).map (fun S => (S.nicks, S.channels)) = .ok ([], []) := by
    decide +kernel
  have user : (stateStep freshUser hides).map (fun S => (S.nickHeap meRef).map fun n =>
      (n.nick, n.modes ⟨105, by decide⟩)) = .ok (some (some (str "me"), true)) := by decide +kernel
  have host : (stateStep freshUser hides).map (fun S => (S.nickHeap meRef).map fun n =>
      (n.username, n.hostname)) = .ok (some (some (str "u"), some (str "h"))) := by decide +kernel
  have told : (stateStep freshUser hides >>= fun S =>
      clientSendState long0 (Client.quiet true none freshUser) S).map (fun r =>
        (mirror freshUser r.2.sent).toOption.map fun O =>
          (O.nickHeap meRef).map fun n => n.modes ⟨105, by decide⟩) = .ok (some (some false)) := by
    decide +kernel
  obtain ⟨S, hS, hlists⟩ := map_eq_ok lists
  rw [hS] at user host told
  obtain ⟨hn, hcs⟩ := Prod.mk.inj hlists
  obtain ⟨me, hme, hwho⟩ := Option.map_eq_some_iff.mp (Except.ok.inj user)
  obtain ⟨me', hme', hhost⟩ := Option.map_eq_some_iff.mp (Except.ok.inj host)
  obtain rfl := Option.some.inj (hme.symm.trans hme')
  obtain ⟨hnick, hmode⟩ := Prod.mk.inj hwho
  obtain ⟨husername, hhostname⟩ := Prod.mk.inj hhost
  have hinfo : S.info = networkInfoInit :=
    freshUser_info (by decide +kernel) (by decide +kernel) hS
  have unique : NicksUnique S := by
    refine .alone hn hme hnick fun c hc => ?_
    rw [hcs] at hc
    cases hc
  have spelled : StateSpelled S := by
    have hsub : S.channels ⊆ [1] := by simp [hcs]
    refine .alone hn hme hnick me_spelled hsub fun hc => ?_
    rw [hcs] at hc
    cases hc
  obtain ⟨c, O, hsend, hmir, ht⟩ := claim _ _ _ S (.step .refl trivial hS) hinfo unique spelled
    me _ _ _ none long0 hme hnick husername hhostname (by decide) (by decide) nofun
  obtain ⟨r, hr, hseen⟩ := map_eq_ok told
  obtain rfl := Except.ok.inj (hr.symm.trans hsend)
  obtain ⟨O', hO', hseen⟩ := Option.map_eq_some_iff.mp hseen
  obtain ⟨n, hn, hmode'⟩ := Option.map_eq_some_iff.mp hseen
  obtain ⟨me₁, me₂, hme₁, hme₂, hmodes⟩ := ht.modes
  have hO : O' = O := by
    have hmir' : mirror freshUser c.sent = .ok O := hmir
    rw [hmir'] at hO'
    exact (Option.some.inj hO').symm
  subst hO
  obtain rfl := Option.some.inj (hme.symm.trans hme₁)
  obtain rfl := Option.some.inj (hn.symm.trans hme₂)
  rw [hmodes, hmode] at hmode'
  cases hmode'
end Ctrlproxy
