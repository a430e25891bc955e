import Ctrlproxy.Client.Patch

/-!
# Client — the difference of two states

`client_send_state_diff` patches a copy of the old state.  Channel by channel: the members that the
new state has under the same hostmask stay and are renamed, the others leave; the members whose nick
the old channel lacks enter; a topic is replaced by one that someone set; flags are added.
-/

namespace Ctrlproxy
open Outcome

/-! ### A client whose state is the copy -/

/-- The state after these lines. -/
def patched (s : NetworkState) (lines : List Input) : Except Fault NetworkState :=
  lines.foldlM stateStep s

theorem patched_snoc (s : NetworkState) (lines : List Input) (i : Input) :
    patched s (lines ++ [i]) = patched s lines >>= fun s => stateStep s i := by
  rw [patched, patched, List.foldlM_append]
  refine congrArg _ (funext fun s => ?_)
  rw [List.foldlM_cons]
  cases stateStep s i <;> rfl

/-- The client was sent `n` lines or more since its state was `old`, and its state is what they made
of it. -/
structure Following (origin : Option Str) (old : NetworkState) (n : ℕ) (P : NetworkState → Prop)
    (c : Client) : Prop where
  connected : c.connected = true
  origin : c.defaultOrigin = origin
  sent : n ≤ c.sent.length
  state : ∃ O, c.state = some O ∧ patched old c.sent = .ok O ∧ P O

section
variable {origin : Option Str} {old : NetworkState} {n : ℕ} {P P' : NetworkState → Prop} {c : Client}
  {now : Long} {l : IrcLine} {E : Fault → Prop}

/-- A command is looked up by the first argument. -/
theorem commandOf_mem {cmd : Str} {as : List Str} (hl : l.args = cmd :: as) :
    ∀ k ∈ commandOf l, k ∈ (ircCommands.find? fun e => baseEq (some cmd) e.1).map (·.2.2) := by
  rw [commandOf, hl]
  dsimp only
  cases ircCommands.find? fun e => baseEq (some cmd) e.1 with
  | none => exact fun _ h => h
  | some e =>
      dsimp only
      split
      · exact fun _ h => h
      · intro k h
        cases h

/-- Only a 302 line is changed before it is sent. -/
theorem commandOf_kept {cmd : Str} {as : List Str} (hl : l.args = cmd :: as)
    (h : (ircCommands.find? fun e => baseEq (some cmd) e.1).map (·.2.2) ≠ some .c302) :
    commandOf l ≠ some .c302 :=
  fun e => h (Option.mem_def.mp (commandOf_mem hl _ e))

theorem Following.send (h : Following origin old n P c) (hk : commandOf l ≠ some .c302)
    (hO : ∀ O, P O → Ensures (stateStep O (now, l)) P' E) : Ensures (clientSendLine now c l)
      (fun r => r.1 = true ∧ Following origin old (n + 1) P' r.2) E := by
  obtain ⟨O, hO₁, hpatch, hP⟩ := h.state
  have hl : strippedLine l = l := by rw [strippedLine, if_neg hk]
  rw [clientSendLine_state h.connected hO₁, hl]
  have hx := hO O hP
  cases hs : stateStep O (now, l) with
  | error e =>
      rw [hs] at hx
      exact hx
  | ok O' =>
      rw [hs] at hx
      refine ⟨rfl, h.connected, h.origin, ?_, O', rfl, ?_, hx⟩
      · simpa using h.sent
      · show patched old (c.sent ++ [(now, l)]) = .ok O'
        rw [patched_snoc, hpatch, ok_bind, hs]

theorem Following.imp {n' : ℕ} (h : Following origin old n P c) (hn : n' ≤ n)
    (hP : ∀ O, P O → P' O) : Following origin old n' P' c := by
  obtain ⟨O, hO, hpatch, hp⟩ := h.state
  exact ⟨h.connected, h.origin, hn.trans h.sent, O, hO, hpatch, hP O hp⟩

end

/-! ### States that differ -/

/-- The hostmask of a nick as it is compared. -/
def maskKey (s : NetworkState) (g : Ref) : Option Str :=
  ((s.nickHeap g).bind (·.hostmask)).map Casemapping.unknown.fold

/-- No mode of a channel is a sign or the terminator. -/
def Letters (m : Modes) : Prop :=
  ∀ i, m i = true → i.1 ≠ 0 ∧ i.1 ≠ (chr '+').1 ∧ i.1 ≠ (chr '-').1

/-- A state of the user `nick` with the hostmask `hm` whose nicks and channels have the names they
should have, whose members' hostmasks are known, and whose user is on all channels. -/
structure Patchable (nick hm : Str) (s : NetworkState) : Prop where
  graph : Graph s
  info : s.info = networkInfoInit
  unique : Unique .unknown s
  identity : identityOf s = some (some nick, some hm)
  hostmasks : HostmaskNicks s
  names : ∀ g a, Known s g → nameOf s g = some a → NickSpelled a
  front : upToBang hm = nick
  masks : ∀ c ∈ s.channels, ∀ g, OnChan s c g →
    ∃ n w, s.nickHeap g = some n ∧ n.hostmask = some w ∧ chr '!' ∈ w
  distinct : ChansDistinct s
  channels : ∀ c ∈ s.channels, ∀ ch, s.chanHeap c = some ch → ch.name ≠ [] ∧ chr ',' ∉ ch.name ∧
    isChannelname ch.name networkInfoInit = .ok true ∧ Letters ch.modes
  present : ∀ c ∈ s.channels, OnChan s c meRef

section
variable {nick hm : Str} {s : NetworkState} {c g : Ref}

theorem fold_upToBang (w : Str) :
    Casemapping.unknown.fold (upToBang w) = upToBang (Casemapping.unknown.fold w) := by
  rw [Casemapping.fold, Casemapping.fold, upToBang, upToBang, List.takeWhile_map]
  congr 2
  funext b
  exact decide_eq_decide.mpr (not_congr (foldByte_low (by decide) b).symm)

/-- A member, with its name and its hostmask. -/
theorem Patchable.member (h : Patchable nick hm s) (hc : c ∈ s.channels) (hon : OnChan s c g) :
    ∃ n w, s.nickHeap g = some n ∧ n.hostmask = some w ∧ chr '!' ∈ w ∧
      n.nick = some (upToBang w) ∧ NickSpelled (upToBang w) := by
  have hk := hon.known h.graph hc
  obtain ⟨n, w, hn, hw, hbang⟩ := h.masks c hc g hon
  obtain ⟨a, ha⟩ := h.unique.named g hk
  have hspell := h.names g a hk ha
  rw [nameOf_eq hn] at ha
  have front : upToBang w = a := by
    by_cases hme : g = meRef
    · subst hme
      obtain ⟨me, hme, e⟩ := Option.map_eq_some_iff.mp h.identity
      obtain rfl := Option.some.inj (hme.symm.trans hn)
      obtain ⟨e₁, e₂⟩ := Prod.mk.inj e
      rw [hw] at e₂
      cases e₂
      rw [ha] at e₁
      cases e₁
      exact h.front
    · rw [h.hostmasks g n hme hn w a hw ha, upToBang_bare hspell.bang]
  exact ⟨n, w, hn, hw, hbang, front ▸ ha, front ▸ hspell⟩

theorem Patchable.nameOf_me (h : Patchable nick hm s) : nameOf s meRef = some nick := by
  obtain ⟨me, hme, e⟩ := Option.map_eq_some_iff.mp h.identity
  exact (nameOf_eq hme).trans (Prod.mk.inj e).1

theorem Patchable.copy (h : Patchable nick hm s) : Copy nick hm s s where
  graph := h.graph
  info := h.info
  unique := h.unique
  identity := h.identity
  hostmasks := h.hostmasks
  channels := fun _ hc => ⟨hc, rfl⟩
  kept := fun _ hk => ⟨hk.1, rfl⟩
  queries := fun _ _ n hn hq => ⟨n, hn, hq⟩
  listed := fun _ => id

/-- The test of the search by hostmask. -/
theorem maskTest (h : Patchable nick hm s) (hc : c ∈ s.channels) {ch : ChannelState}
    (hch : s.chanHeap c = some ch) {m : Ref} (hm' : m ∈ ch.nicks) (x : Str) : (do
      let cn ← s.memb m
      let n ← s.nick cn.globalNick
      ircEq (s.infoFor ch) n.hostmask (some x)) =
    .ok (decide ((s.membHeap m).bind (fun cn => maskKey s cn.globalNick) =
      some (Casemapping.unknown.fold x))) := by
  obtain ⟨cn, gn, l, rfl⟩ := h.graph.link_of_chan hc hch hm'
  obtain ⟨n, w, hn, hw, -⟩ := h.masks _ hc cn.globalNick ⟨ch, m, cn, hch, hm', l.memb, rfl⟩
  have hinfo : s.infoFor ch = some networkInfoInit := by
    rw [NetworkState.infoFor, h.graph.link_network l, if_pos rfl, h.info]
  rw [NetworkState.memb_eq l.memb, ok_bind, NetworkState.nick_eq hn, ok_bind, hinfo, hw, ircEq_init,
    l.memb, Option.bind_some, maskKey, hn, Option.bind_some, hw, Option.map_some]
  exact congrArg Except.ok (decide_eq_decide.mpr Option.some_inj.symm)

/-- What the search for a hostmask answers. -/
theorem Patchable.findHostmask (h : Patchable nick hm s) (hc : c ∈ s.channels) (x : Str) :
    (∃ m cn, findChannelNickHostmask s c (some x) = .ok (some m) ∧ s.membHeap m = some cn ∧
      OnChan s c cn.globalNick ∧ maskKey s cn.globalNick = some (Casemapping.unknown.fold x)) ∨
    findChannelNickHostmask s c (some x) = .ok none ∧
      ∀ g, OnChan s c g → maskKey s g ≠ some (Casemapping.unknown.fold x) := by
  obtain ⟨ch, hch, hw, -⟩ := h.graph.chan_live c hc
  have hfind : findChannelNickHostmask s c (some x) = .ok (ch.nicks.find? fun m =>
      decide ((s.membHeap m).bind (fun cn => maskKey s cn.globalNick) =
        some (Casemapping.unknown.fold x))) := by
    rw [findChannelNickHostmask, NetworkState.chan_eq hch, ok_bind, if_neg (by simp [hw])]
    exact findFirst_eq_find? fun m hm' => maskTest h hc hch hm' x
  rw [hfind]
  cases hf : ch.nicks.find? fun m =>
      decide ((s.membHeap m).bind (fun cn => maskKey s cn.globalNick) =
        some (Casemapping.unknown.fold x)) with
  | some m =>
      have hm' := List.mem_of_find?_eq_some hf
      obtain ⟨cn, gn, l, rfl⟩ := h.graph.link_of_chan hc hch hm'
      have hp := List.find?_some hf
      have e := of_decide_eq_true hp
      rw [l.memb, Option.bind_some] at e
      exact .inl ⟨m, cn, rfl, l.memb, ⟨ch, m, cn, hch, hm', l.memb, rfl⟩, e⟩
  | none =>
      refine .inr ⟨rfl, ?_⟩
      rintro g ⟨ch', m, cn, hch', hm', hcn, rfl⟩ e
      obtain rfl := Option.some.inj (hch.symm.trans hch')
      refine List.find?_eq_none.mp hf m hm' (decide_eq_true ?_)
      rw [hcn, Option.bind_some, e]

/-- What the search for a nick answers. -/
theorem Patchable.findNick (h : Patchable nick hm s) (hc : c ∈ s.channels) {x : Str}
    (hx : NickSpelled x) :
    (∃ m g, findChannelNick s c x = .ok (some m) ∧ OnChan s c g ∧
      keyOf s g = some (Casemapping.unknown.fold x)) ∨
    findChannelNick s c x = .ok none ∧
      ∀ g, OnChan s c g → keyOf s g ≠ some (Casemapping.unknown.fold x) := by
  obtain ⟨ch, hch, -⟩ := h.graph.chan_live c hc
  have hfind : findChannelNick s c x = findMember s (some s.info) x ch.nicks := by
    rw [findChannelNick_eq h.graph hc hch, stripPrefix_of_not (h.info.symm ▸ hx.prefixless)]
  by_cases hg : ∃ g, OnChan s c g ∧ keyOf s g = some (Casemapping.unknown.fold x)
  · obtain ⟨g, hon, hkey⟩ := hg
    obtain ⟨ch', m, cn, hch', hm', hcn, rfl⟩ := id hon
    obtain rfl := Option.some.inj (hch.symm.trans hch')
    exact .inl ⟨m, _, hfind.trans (findMember_key h.graph h.unique h.info hc hch hm' hcn hkey), hon, hkey⟩
  · have hno : ∀ g, OnChan s c g → keyOf s g ≠ some (Casemapping.unknown.fold x) :=
      fun g hon e => hg ⟨g, hon, e⟩
    exact .inr ⟨hfind.trans (findMember_noKey h.graph h.unique h.info hc hch hno), hno⟩

end

/-! ### A channel of both states -/

/-- The channel at `c` of the old state and that at `d` of the new one have the same name. -/
structure Pair (nick hm : Str) (old new : NetworkState) (c d : Ref) (os ns : ChannelState) : Prop where
  oldOk : Patchable nick hm old
  newOk : Patchable nick hm new
  oldMem : c ∈ old.channels
  newMem : d ∈ new.channels
  oldChan : old.chanHeap c = some os
  newChan : new.chanHeap d = some ns
  name : Casemapping.unknown.fold os.name = Casemapping.unknown.fold ns.name

/-- The new channel has a member with the hostmask of this nick. -/
def Stays (old new : NetworkState) (d g : Ref) : Prop :=
  ∃ g', OnChan new d g' ∧ maskKey new g' = maskKey old g

/-- The members `ms` of the old channel are still to be compared with the new one: of the others,
those that stay are there, by names of the new state. -/
structure Leaving (nick hm : Str) (old new O₀ : NetworkState) (c d : Ref) (os : ChannelState)
    (ms : List Ref) (O : NetworkState) : Prop where
  copy : Copy nick hm old O
  aside : Aside new c O₀ O
  listed : c ∈ O.channels
  chan : ∃ left, O.chanHeap c = some { os with nicks := left } ∧
    (∀ m, m ∈ left ↔ m ∈ os.nicks ∧
      (m ∈ ms ∨ ∃ cn, old.membHeap m = some cn ∧ Stays old new d cn.globalNick)) ∧
    ∀ m ∈ left, O.membHeap m = old.membHeap m ∧ ∀ cn, old.membHeap m = some cn →
      keyOf O cn.globalNick = keyOf old cn.globalNick ∧
        (m ∈ ms ∨ SpelledIn new (nameOf O cn.globalNick))

section
variable {nick hm : Str} {old new O₀ O : NetworkState} {c d m : Ref} {os ns : ChannelState}
  {ms : List Ref} {now : Long}

theorem Pair.chanKey (hp : Pair nick hm old new c d os ns) :
    chanKey old c = some (Casemapping.unknown.fold ns.name) := by
  rw [chanKey_eq hp.oldChan, hp.name]

/-- A member of the old channel whose nick is renamed to one with the same hostmask. -/
theorem Leaving.rename (hp : Pair nick hm old new c d os ns) (hgraph : Graph O₀)
    (h : Leaving nick hm old new O₀ c d os (m :: ms) O) (hm' : m ∈ os.nicks) {cn : ChannelNick}
    (hcn : old.membHeap m = some cn) {w : Str} {g' : Ref}
    (hw : keyOf old cn.globalNick = some (Casemapping.unknown.fold (upToBang w)))
    (hon : OnChan new d g') (hmask : maskKey new g' = maskKey old cn.globalNick) {x : Str}
    (hx : nameOf new g' = some x)
    (e : Casemapping.unknown.fold (upToBang w) = Casemapping.unknown.fold x) :
    Total (stateStep O (now, vircParseLine (some w) [some (str "NICK"), some x]))
      (Leaving nick hm old new O₀ c d os ms) := by
  obtain ⟨left, hch, hleft, hmembs⟩ := h.chan
  have hm'' : m ∈ left := (hleft m).mpr ⟨hm', .inl List.mem_cons_self⟩
  obtain ⟨cn', gn, l, hcc⟩ := h.copy.graph.link_of_chan h.listed hch hm''
  obtain ⟨hsame, hname⟩ := hmembs m hm''
  obtain rfl : cn' = cn := Option.some.inj (l.memb.symm.trans (hsame.trans hcn))
  have hkey : keyOf O cn'.globalNick = some (Casemapping.unknown.fold (upToBang w)) :=
    (hname cn' hcn).1.trans hw
  obtain ⟨a, ha⟩ := h.copy.unique.named _ l.known
  have hfold : Casemapping.unknown.fold a = Casemapping.unknown.fold x := by
    rw [keyOf_eq ha, Option.some_inj] at hkey
    exact hkey.trans e
  have hgn := networkNickSetNick_nick gn x
  have hspelled : SpelledIn new (some x) := ⟨g', hon.known hp.newOk.graph hp.newMem, hx⟩
  -- the user has this nick
  have hmine : cn'.globalNick = meRef → networkNickSetNick gn x = gn := by
    intro hme
    have hxn : x = nick := by
      have hk : keyOf new g' = keyOf new meRef := by
        rw [keyOf_eq hx, keyOf_eq hp.newOk.nameOf_me, ← e, ← hw, hme, keyOf_eq hp.oldOk.nameOf_me]
      obtain rfl := hp.newOk.unique.key_inj (hon.known hp.newOk.graph hp.newMem) (.inl rfl) hk
      exact Option.some.inj (hx.symm.trans hp.newOk.nameOf_me)
    have hnick : gn.nick = some x := by
      rw [← nameOf_eq l.nick, hme, h.copy.nameOf_me, hxn]
    rw [networkNickSetNick, if_pos hnick]
  have hmask' : HostmaskNick (networkNickSetNick gn x) := by
    by_cases hme : cn'.globalNick = meRef
    · rw [hmine hme]
      obtain ⟨me, hme', hnick, hhm⟩ := h.copy.me
      obtain rfl := Option.some.inj (hme'.symm.trans (hme ▸ l.nick))
      intro w' a' hw' ha'
      rw [hhm] at hw'
      rw [hnick] at ha'
      cases hw'
      cases ha'
      rw [hp.oldOk.front, upToBang_bare (hp.oldOk.names meRef _ (.inl rfl) hp.oldOk.nameOf_me).bang]
    · exact (NameEdit.nick gn x).hostmask_nick (h.copy.hostmasks _ _ hme l.nick)
  rw [h.copy.nickLine l.known l.nick hkey x]
  refine ⟨h.copy.setNick l.known l.nick ha hgn hfold (by simp) (by simp) hmask' fun hme => ?_,
    h.aside.trans (.setNick ha hgn hfold hspelled) hgraph, h.listed, left, hch, fun m₁ => ?_,
    fun m₁ hm₁ => ⟨(hmembs m₁ hm₁).1, fun cn₁ hcn₁ => ?_⟩⟩
  · rw [hmine hme]
    exact ⟨rfl, rfl⟩
  · rw [hleft m₁]
    refine and_congr_right fun _ => ⟨?_, Or.imp_left (List.mem_cons_of_mem _)⟩
    rintro (hin | hstay)
    · rcases List.mem_cons.mp hin with rfl | hin
      · exact .inr ⟨cn', hcn, g', hon, hmask⟩
      · exact .inl hin
    · exact .inr hstay
  · obtain ⟨hsame₁, hname₁⟩ := hmembs m₁ hm₁
    obtain ⟨hkey₁, hspell₁⟩ := hname₁ cn₁ hcn₁
    by_cases hg : cn₁.globalNick = cn'.globalNick
    · have hset : nameOf (O.setNick cn'.globalNick (networkNickSetNick gn x)) cn₁.globalNick =
          some x := by
        rw [hg]
        exact nameOf_set_same.trans hgn
      refine ⟨?_, .inr (hset.symm ▸ hspelled)⟩
      rw [keyOf_eq hset, ← hkey₁, hg, keyOf_eq ha, hfold]
    · have hset : nameOf (O.setNick cn'.globalNick (networkNickSetNick gn x)) cn₁.globalNick =
          nameOf O cn₁.globalNick := nameOf_set_other hg
      refine ⟨(keyOf_congr hset).trans hkey₁, ?_⟩
      rw [hset]
      refine hspell₁.imp_left fun hin => ?_
      rcases List.mem_cons.mp hin with rfl | hin
      · rw [hcn] at hcn₁
        cases hcn₁
        exact absurd rfl hg
      · exact hin

/-- A member of the old channel that has no counterpart leaves. -/
theorem Leaving.leave (hp : Pair nick hm old new c d os ns) (hgraph : Graph O₀)
    (h : Leaving nick hm old new O₀ c d os (m :: ms) O) (hm' : m ∈ os.nicks) (hnot : m ∉ ms)
    {cn : ChannelNick} (hcn : old.membHeap m = some cn) {w : Str}
    (hw : keyOf old cn.globalNick = some (Casemapping.unknown.fold (upToBang w)))
    (hpre : isPrefix (upToBang w).head? (some networkInfoInit) = false)
    (hgone : ¬ Stays old new d cn.globalNick) :
    Total (stateStep O (now, vircParseLine (some w) [some (str "PART"), some ns.name]))
      (Leaving nick hm old new O₀ c d os ms) := by
  obtain ⟨left, hch, hleft, hmembs⟩ := h.chan
  have hm'' : m ∈ left := (hleft m).mpr ⟨hm', .inl List.mem_cons_self⟩
  obtain ⟨cn', gn, l, hcc⟩ := h.copy.graph.link_of_chan h.listed hch hm''
  obtain ⟨hsame, hname⟩ := hmembs m hm''
  obtain rfl : cn' = cn := Option.some.inj (l.memb.symm.trans (hsame.trans hcn))
  have hkey : keyOf O cn'.globalNick = some (Casemapping.unknown.fold (upToBang w)) :=
    (hname cn' hcn).1.trans hw
  have honOld : OnChan old c cn'.globalNick := ⟨os, m, cn', hp.oldChan, hm', hcn, rfl⟩
  -- the user stays
  have hme : cn'.globalNick ≠ meRef := by
    intro hme
    refine hgone ⟨meRef, hp.newOk.present d hp.newMem, ?_⟩
    obtain ⟨me, hme₁, e₁⟩ := Option.map_eq_some_iff.mp hp.newOk.identity
    obtain ⟨me', hme₂, e₂⟩ := Option.map_eq_some_iff.mp hp.oldOk.identity
    rw [hme, maskKey, maskKey, hme₁, hme₂, Option.bind_some, Option.bind_some,
      (Prod.mk.inj e₁).2, (Prod.mk.inj e₂).2]
  obtain ⟨hne, hcomma, -⟩ := hp.newOk.channels d hp.newMem ns hp.newChan
  have hold : ∀ n, old.nickHeap cn'.globalNick = some n → n.channelNicks ≠ [] :=
    fun n hn => honOld.unused hp.oldOk.graph hp.oldMem hn
  rw [h.copy.partLine hp.oldOk.distinct h.listed hne hcomma hp.chanKey l hcc hkey hpre hme hold]
  have hcopy := h.copy.removeMemb l hold
  have hrest : ∀ m₁, m₁ ∈ left.erase m → m₁ ∈ left ∧ m₁ ≠ m := by
    obtain ⟨ch, hch', -, hnodup⟩ := h.copy.graph.chan_live c h.listed
    obtain rfl := Option.some.inj (hch.symm.trans hch')
    exact fun m₁ hm₁ => ((List.Nodup.mem_erase_iff hnodup).mp hm₁).symm
  refine ⟨hcopy, h.aside.trans (hcc ▸ .removeMemb h.copy.graph l) hgraph,
    removeMemb_channels.symm ▸ h.listed, left.erase m, hcc ▸ removeMemb_chan, fun m₁ => ?_,
    fun m₁ hm₁ => ?_⟩
  · constructor
    · intro hm₁
      obtain ⟨hin, hne₁⟩ := hrest m₁ hm₁
      obtain ⟨hin', hwhy⟩ := (hleft m₁).mp hin
      refine ⟨hin', hwhy.imp_left fun hc => ?_⟩
      exact (List.mem_cons.mp hc).resolve_left hne₁
    · rintro ⟨hin, hwhy⟩
      have hne₁ : m₁ ≠ m := by
        rintro rfl
        rcases hwhy with hc | ⟨cn₁, hcn₁, hstay⟩
        · exact hnot hc
        · rw [hcn] at hcn₁
          cases hcn₁
          exact hgone hstay
      refine (List.mem_erase_of_ne hne₁).mpr ((hleft m₁).mpr ⟨hin, ?_⟩)
      exact hwhy.imp_left (List.mem_cons_of_mem _)
  · obtain ⟨hin, hne₁⟩ := hrest m₁ hm₁
    obtain ⟨hsame₁, hname₁⟩ := hmembs m₁ hin
    refine ⟨by rw [removeMemb_memb, Heap.del_other hne₁]; exact hsame₁, fun cn₁ hcn₁ => ?_⟩
    obtain ⟨hkey₁, hspell₁⟩ := hname₁ cn₁ hcn₁
    have hon₁ : OnChan (removeMemb O m cn' { os with nicks := left } gn) c cn₁.globalNick := by
      refine ⟨{ os with nicks := left.erase m }, m₁, cn₁, hcc ▸ removeMemb_chan, hm₁, ?_, rfl⟩
      rw [removeMemb_memb, Heap.del_other hne₁, hsame₁, hcn₁]
    have hk₁ := hon₁.known hcopy.graph (removeMemb_channels.symm ▸ h.listed)
    have hset := ((removeMemb_trims h.copy.graph l).names h.copy.graph hk₁).2
    refine ⟨(keyOf_congr hset).trans hkey₁, ?_⟩
    rw [hset]
    exact hspell₁.imp_left fun hc => (List.mem_cons.mp hc).resolve_left hne₁

/-- The first loop: of the members of the old channel those that the new one has stay. -/
theorem sendOldMembers_leaves (hp : Pair nick hm old new c d os ns) (hgraph : Graph O₀)
    {origin : Option Str} {n : ℕ} (hms : ∀ m ∈ ms, m ∈ os.nicks) (hnodup : ms.Nodup) {cl : Client}
    (h : Following origin old n (Leaving nick hm old new O₀ c d os ms) cl) :
    Total (sendOldMembers now old new d ms cl) (fun r => r.1 = true ∧
      Following origin old (n + ms.length) (Leaving nick hm old new O₀ c d os []) r.2) := by
  induction ms generalizing n cl with
  | nil => exact ⟨rfl, h⟩
  | cons m ms ih =>
      have hm' := hms m List.mem_cons_self
      obtain ⟨cn, gn, l, -⟩ := hp.oldOk.graph.link_of_chan hp.oldMem hp.oldChan hm'
      have hon : OnChan old c cn.globalNick := ⟨os, m, cn, hp.oldChan, hm', l.memb, rfl⟩
      obtain ⟨on, w, hn, hw, -, hname, hspell⟩ := hp.oldOk.member hp.oldMem hon
      have hmask : maskKey old cn.globalNick = some (Casemapping.unknown.fold w) := by
        rw [maskKey, hn, Option.bind_some, hw, Option.map_some]
      have hkey : keyOf old cn.globalNick = some (Casemapping.unknown.fold (upToBang w)) :=
        keyOf_eq ((nameOf_eq hn).trans hname)
      have rest : ∀ cl, Following origin old (n + 1) (Leaving nick hm old new O₀ c d os ms) cl →
          Total (sendOldMembers now old new d ms cl) (fun r => r.1 = true ∧
            Following origin old (n + (m :: ms).length) (Leaving nick hm old new O₀ c d os []) r.2) := by
        intro cl hcl
        refine (ih (fun m₁ hm₁ => hms m₁ (List.mem_cons_of_mem _ hm₁)) hnodup.of_cons hcl).imp
          fun r hr => ?_
        rw [List.length_cons, Nat.add_comm ms.length, ← Nat.add_assoc]
        exact hr
      rw [sendOldMembers, NetworkState.memb_eq l.memb, ok_bind, NetworkState.nick_eq hn, ok_bind, hw]
      rcases hp.newOk.findHostmask hp.newMem w with
        ⟨m', cn', hfind, hcn', hon', hsame⟩ | ⟨hfind, hnone⟩
      · obtain ⟨nn, w', hnn, hw', -, hname', -⟩ := hp.newOk.member hp.newMem hon'
        have hfold : Casemapping.unknown.fold w' = Casemapping.unknown.fold w := by
          rw [maskKey, hnn, Option.bind_some, hw', Option.map_some, Option.some_inj] at hsame
          exact hsame
        have e : Casemapping.unknown.fold (upToBang w) =
            Casemapping.unknown.fold (upToBang w') := by
          rw [fold_upToBang, fold_upToBang, hfold]
        rw [hfind, ok_bind, NetworkState.chan_eq hp.newChan, ok_bind, sendLeaving,
          NetworkState.memb_eq hcn', ok_bind, NetworkState.nick_eq hnn, ok_bind, hw, hname']
        refine andThen_bind (h.send (commandOf_kept rfl (by decide)) fun O hO => ?_) rest
        exact hO.rename hp hgraph hm' l.memb hkey hon' (hsame.trans hmask.symm)
          ((nameOf_eq hnn).trans hname') e
      · rw [hfind, ok_bind, NetworkState.chan_eq hp.newChan, ok_bind, sendLeaving, hw]
        refine andThen_bind (h.send (commandOf_kept rfl (by decide)) fun O hO => ?_) rest
        refine hO.leave hp hgraph hm' (List.nodup_cons.mp hnodup).1 l.memb hkey hspell.prefixless ?_
        rintro ⟨g', hon', e⟩
        exact hnone g' hon' (e.trans hmask)

end

end Ctrlproxy
