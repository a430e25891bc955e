import Ctrlproxy.Client.Copy
import Ctrlproxy.Client.Transfer
import Ctrlproxy.State.ModeBounds

/-!
# Client — the lines of a difference

What the lines PART, NICK, JOIN, TOPIC and MODE that `client_send_state_diff` writes do to a copy of
the old state.
-/

namespace Ctrlproxy
open Outcome

/-! ### Renaming and leaving -/

section
variable {nick hm : Str} {old new O : NetworkState} {g c m : Ref} {now : Long} {w x name : Str}

/-- NICK, of a known nick. -/
theorem Copied.nickLine (h : Copied nick hm old O) (hg : Known O g) {n : NetworkNick}
    (hn : O.nickHeap g = some n) (hw : keyOf O g = some (Casemapping.unknown.fold (upToBang w)))
    (x : Str) : stateStep O (now, vircParseLine (some w) [some (str "NICK"), some x]) =
      .ok (O.setNick g (networkNickSetNick n x)) := by
  have hk : commandOf (vircParseLine (some w) [some (str "NICK"), some x]) = some .nick :=
    commandOf_known (n := 1) rfl rfl (by simp [vaList])
  have hstep : stateStep O (now, vircParseLine (some w) [some (str "NICK"), some x]) =
      (do
        let r ← findAddNetworkNick O (upToBang w)
        r.2.modifyNick r.1 fun n => networkNickSetNick n x) :=
    stateStep_handler (k := .nick) hk
  rw [hstep, findAddNetworkNick, findNetworkNick_key h.unique h.info hg hw]
  simp only [ok_bind, pure_eq_ok, NetworkState.modifyNick, NetworkState.nick_eq hn]

theorem gStrsplit_single {b : Byte} {name : Str} (hne : name ≠ []) (hb : b ∉ name) :
    gStrsplit name b = [name] := by
  rw [gStrsplit, if_neg hne, pieces_single hb]

/-- A PART line that names one channel. -/
theorem partLine_eq (hne : name ≠ []) (hcomma : chr ',' ∉ name) :
    stateStep O (now, vircParseLine (some w) [some (str "PART"), some name]) =
      partChannel (upToBang w) O name := by
  have hk : commandOf (vircParseLine (some w) [some (str "PART"), some name]) = some .part :=
    commandOf_known (n := 1) rfl rfl (by simp [vaList])
  have hstep : stateStep O (now, vircParseLine (some w) [some (str "PART"), some name]) =
      (gStrsplit name (chr ',')).foldlM (partChannel (upToBang w)) O :=
    stateStep_handler (k := .part) hk
  rw [hstep, gStrsplit_single hne hcomma, List.foldlM_cons]
  cases partChannel (upToBang w) O name <;> rfl

/-- The member that a PART line frees. -/
theorem Copied.freeFound (h : Copied nick hm old O) (hd : ChansDistinct old) (hc : c ∈ O.channels)
    (hname : chanKey old c = some (Casemapping.unknown.fold name)) {cn : ChannelNick}
    {ch : ChannelState} {gn : NetworkNick} (l : Link O m cn ch gn) (hcc : cn.channel = c)
    (hw : keyOf O cn.globalNick = some (Casemapping.unknown.fold w))
    (hp : isPrefix w.head? (some networkInfoInit) = false) :
    partChannel w O name = leaveChannel (removeMemb O m cn ch gn) c w := by
  subst hcc
  have hfind : findChannelNick O cn.channel w = .ok (some m) := by
    rw [findChannelNick_eq h.graph hc l.chan, stripPrefix_of_not (h.info.symm ▸ hp)]
    exact findMember_key h.graph h.unique h.info hc l.chan l.in_chan l.memb hw
  rw [partChannel, h.findChannel hd hc hname, ok_bind]
  dsimp only
  rw [hfind, ok_bind, Ctrlproxy.freeFound, freeChannelNick_eq h.graph l, ok_bind]

/-- PART, of another member than the user. -/
theorem Copy.partLine (h : Copy nick hm old O) (hd : ChansDistinct old) (hc : c ∈ O.channels)
    (hne : name ≠ []) (hcomma : chr ',' ∉ name)
    (hname : chanKey old c = some (Casemapping.unknown.fold name)) {cn : ChannelNick}
    {ch : ChannelState} {gn : NetworkNick} (l : Link O m cn ch gn) (hcc : cn.channel = c)
    (hw : keyOf O cn.globalNick = some (Casemapping.unknown.fold (upToBang w)))
    (hp : isPrefix (upToBang w).head? (some networkInfoInit) = false)
    (hme : cn.globalNick ≠ meRef)
    (hold : ∀ n, old.nickHeap cn.globalNick = some n → n.channelNicks ≠ []) :
    stateStep O (now, vircParseLine (some w) [some (str "PART"), some name]) =
      .ok (Ctrlproxy.removeMemb O m cn ch gn) := by
  have h' := h.removeMemb l hold
  rw [partLine_eq hne hcomma, h.toCopied.freeFound hd hc hname l hcc hw hp, leaveChannel]
  obtain ⟨me, hme', hnick, -⟩ := h'.toCopied.me
  have hother : Casemapping.unknown.fold (upToBang w) ≠ Casemapping.unknown.fold nick := by
    intro e
    rw [e] at hw
    refine hme (h.unique.key_inj l.known (.inl rfl) (hw.trans ?_))
    rw [keyOf_eq h.toCopied.nameOf_me]
  rw [NetworkState.nick_eq hme', ok_bind, h'.info, hnick, ircEq_init, decide_eq_false hother]
  rfl

/-- A channel without members is dropped. -/
theorem Copy.dropChan (h : Copy nick hm old O) (hc : c ∈ O.channels) {ch : ChannelState}
    (hch : O.chanHeap c = some ch) (hnil : ch.nicks = []) : Copy nick hm old (dropChan O c) := by
  have e : Trim O (Ctrlproxy.dropChan O c) := .dropChan hc hch hnil
  refine ⟨⟨e.graph h.graph, h.info, e.unique h.graph h.unique, h.identity, h.hostmasks, ?_, h.kept,
    h.queries⟩, h.listed⟩
  intro c' hc'
  obtain ⟨hne, hc'⟩ := h.graph.channels_nodup.mem_erase_iff.mp hc'
  refine ⟨(h.channels c' hc').1, Eq.trans ?_ (h.channels c' hc').2⟩
  exact congrArg (Option.map _) (Heap.del_other hne)

theorem Aside.dropChan (hg : Graph O) : Aside new c O (dropChan O c) where
  listed := fun _ hx => (hg.channels_nodup.mem_erase_iff.trans (and_iff_right hx))
  chan := fun _ hx => Heap.del_other hx
  memb := fun _ _ h _ => h
  name := fun _ _ _ _ _ => ⟨rfl, .inl rfl⟩

/-- A channel of the old state is freed, with its members. -/
theorem Copy.freeChannelState (h : Copy nick hm old O) (hc : c ∈ O.channels) {ch : ChannelState}
    (hch : O.chanHeap c = some ch)
    (hold : ∀ m ∈ ch.nicks, ∀ cn, O.membHeap m = some cn → ∀ n,
      old.nickHeap cn.globalNick = some n → n.channelNicks ≠ []) (new : NetworkState) :
    ∃ O', freeChannelState O c = .ok O' ∧ Copy nick hm old O' ∧ Aside new c O O' ∧
      c ∉ O'.channels := by
  obtain ⟨ch', hch', hw, hnodup⟩ := h.graph.chan_live c hc
  obtain rfl := Option.some.inj (hch.symm.trans hch')
  have loop := @whileFree_ok (nicksOf c) freeChannelNick
    (fun s l => Copy nick hm old s ∧ Aside new c O s ∧ s.channels = O.channels ∧ l.Nodup ∧
      s.chanHeap c = some { ch with nicks := l } ∧
      ∀ m ∈ l, m ∈ ch.nicks ∧ s.membHeap m = O.membHeap m) ?_ ?_ ch.nicks O
    ⟨h, .refl, rfl, hnodup, hch, fun m hm => ⟨hm, rfl⟩⟩
  · obtain ⟨s, hs, hcopy, haside, hcs, -, hempty, -⟩ := loop
    refine ⟨Ctrlproxy.dropChan s c, ?_, hcopy.dropChan (hcs ▸ hc) hempty rfl,
      haside.trans (.dropChan hcopy.graph) h.graph, fun hmem => ?_⟩
    · have hnames : freeNames O c = .ok s := by
        rw [freeNames, NetworkState.chan_eq hch]
        simp only [ok_bind, hs, NetworkState.modifyChan, NetworkState.chan_eq hempty, pure_eq_ok,
          NetworkState.setChan]
        rw [Heap.set_eq_self hempty]
      rw [Ctrlproxy.freeChannelState, hnames]
      simp only [ok_bind, NetworkState.chan_eq hempty, hw, if_true, pure_eq_ok]
      rfl
    · exact (hcopy.graph.channels_nodup.mem_erase_iff.mp hmem).1 rfl
  · rintro s l ⟨-, -, -, -, hl, -⟩
    rw [nicksOf, NetworkState.chan_eq hl]
    rfl
  · rintro s m l ⟨hcopy, haside, hcs, hnodup, hl, hmembs⟩
    obtain ⟨cn, gn, hlink, rfl⟩ := hcopy.graph.link_of_chan (hcs ▸ hc) hl List.mem_cons_self
    obtain ⟨hm, hsame⟩ := hmembs m List.mem_cons_self
    refine ⟨_, freeChannelNick_eq hcopy.graph hlink,
      hcopy.removeMemb hlink (hold m hm cn (hsame.symm.trans hlink.memb)),
      haside.trans (.removeMemb hcopy.graph hlink) h.graph, removeMemb_channels.trans hcs,
      hnodup.of_cons, ?_, fun m' hm' => ?_⟩
    · rw [removeMemb_chan]
      simp
    · obtain ⟨hin, hsame'⟩ := hmembs m' (List.mem_cons_of_mem _ hm')
      refine ⟨hin, Eq.trans ?_ hsame'⟩
      rw [removeMemb_memb, Heap.del_other]
      rintro rfl
      exact (List.nodup_cons.mp hnodup).1 hm'

/-- PART, of the user. -/
theorem Copy.ownPart (h : Copy nick hm old O) (hd : ChansDistinct old) (hc : c ∈ O.channels)
    (hne : name ≠ []) (hcomma : chr ',' ∉ name)
    (hname : chanKey old c = some (Casemapping.unknown.fold name)) {ch : ChannelState}
    (hch : O.chanHeap c = some ch) (hon : OnChan O c meRef) (hfront : upToBang hm = nick)
    (hp : isPrefix nick.head? (some networkInfoInit) = false)
    (hold : ∀ m ∈ ch.nicks, ∀ cn, O.membHeap m = some cn → ∀ n,
      old.nickHeap cn.globalNick = some n → n.channelNicks ≠ []) (new : NetworkState) :
    ∃ O', stateStep O (now, vircParseLine (some hm) [some (str "PART"), some name]) = .ok O' ∧
      Copy nick hm old O' ∧ Aside new c O O' ∧ c ∉ O'.channels := by
  obtain ⟨ch', m, cn, hch', hm, hcn, hmine⟩ := hon
  obtain rfl := Option.some.inj (hch.symm.trans hch')
  obtain ⟨cn', gn, l, hcc⟩ := h.graph.link_of_chan hc hch hm
  obtain rfl := Option.some.inj (l.memb.symm.trans hcn)
  have hkey : keyOf O cn'.globalNick = some (Casemapping.unknown.fold nick) :=
    hmine ▸ keyOf_eq h.toCopied.nameOf_me
  have h₁ := h.removeMemb l (hold m hm cn' hcn)
  have hch₁ : (Ctrlproxy.removeMemb O m cn' ch gn).chanHeap c =
      some { ch with nicks := ch.nicks.erase m } := hcc ▸ removeMemb_chan
  have hc₁ : c ∈ (Ctrlproxy.removeMemb O m cn' ch gn).channels := removeMemb_channels.symm ▸ hc
  obtain ⟨O', hfree, h', haside, hout⟩ := h₁.freeChannelState hc₁ hch₁ (by
    intro m' hm' cn'' hcn''
    rw [removeMemb_memb] at hcn''
    exact hold m' (List.mem_of_mem_erase hm') cn'' (Heap.of_del hcn'')) new
  refine ⟨O', ?_, h', Aside.trans (hcc ▸ .removeMemb h.graph l) haside h.graph, hout⟩
  obtain ⟨me, hme', hnick, -⟩ := h₁.toCopied.me
  rw [partLine_eq hne hcomma, hfront, h.toCopied.freeFound hd hc hname l hcc hkey hp, leaveChannel,
    NetworkState.nick_eq hme', ok_bind, h₁.info, hnick, ircEq_init, decide_eq_true rfl, ok_bind,
    if_pos rfl, hfree]

end

/-! ### Entering -/

/-- Only a character in front of the letters is folded to it. -/
theorem foldByte_low {x : Byte} (hx : x.1 < 65) (b : Byte) :
    Casemapping.unknown.foldByte b = x ↔ b = x := by
  have same : Casemapping.unknown.foldByte x = x := by
    unfold Casemapping.foldByte
    split
    · next h => exact absurd h.1 (not_le.mpr hx)
    · rfl
  constructor
  · intro e
    unfold Casemapping.foldByte at e
    split at e
    · next hb =>
      have := congrArg Subtype.val e
      dsimp only at this
      omega
    · exact e
  · rintro rfl
    exact same

/-- Names that are the same up to case have a `!` or not. -/
theorem bang_fold {a x : Str} (e : Casemapping.unknown.fold a = Casemapping.unknown.fold x) :
    chr '!' ∈ a ↔ chr '!' ∈ x := by
  have key : ∀ w : Str, chr '!' ∈ w ↔ chr '!' ∈ Casemapping.unknown.fold w := by
    intro w
    rw [Casemapping.fold, List.mem_map]
    constructor
    · exact fun h => ⟨_, h, (foldByte_low (by decide) _).mpr rfl⟩
    · rintro ⟨b, hb, e⟩
      exact (foldByte_low (by decide) b).mp e ▸ hb
  rw [key a, e, ← key x]

theorem upToBang_bare {a : Str} (h : chr '!' ∉ a) : upToBang a = a :=
  List.takeWhile_eq_self_iff.mpr fun _ hb => decide_eq_true fun e => h (e ▸ hb)

theorem not_bang_upToBang (w : Str) : chr '!' ∉ upToBang w := by
  intro h
  have := List.mem_takeWhile_imp h
  simp at this

/-- A nick that is told the hostmask `w` goes by the name in front of it. -/
theorem networkNickSetHostmask_name {n : NetworkNick} {a w : Str} (hbang : chr '!' ∈ w)
    (hn : HostmaskNick n) (ha : n.nick = some a)
    (e : Casemapping.unknown.fold a = Casemapping.unknown.fold (upToBang w)) :
    (networkNickSetHostmask n w).nick = some (upToBang w) := by
  unfold networkNickSetHostmask
  split
  · next hsame =>
    have hbare : chr '!' ∉ a := fun h => not_bang_upToBang w ((bang_fold e).mp h)
    rw [ha, hn w a hsame ha, upToBang_bare hbare]
  · exact splitHostmask_nick hbang

/-- The nick that `find_add_network_nick` returns in a copy. -/
structure Entering (nick hm : Str) (old new O : NetworkState) (c : Ref) (x : Str)
    (r : Ref × NetworkState) : Prop where
  copied : Copied nick hm old r.2
  aside : Aside new c O r.2
  known : Known r.2 r.1
  name : keyOf r.2 r.1 = some (Casemapping.unknown.fold x)
  channels : r.2.channels = O.channels
  chanHeap : r.2.chanHeap = O.chanHeap
  membHeap : r.2.membHeap = O.membHeap
  names : ∀ g, Known O g → nameOf r.2 g = nameOf O g
  listed : ∀ g, Kept r.2 g → g ≠ r.1 → Kept old g
  query : ∀ n, r.2.nickHeap r.1 = some n → n.query = true → Kept old r.1 ∨ r.1 = meRef

section
variable {nick hm : Str} {old new O : NetworkState} {g c m : Ref} {now : Long} {w x name : Str}

theorem Copy.findAddNetworkNick (h : Copy nick hm old O)
    (hp : isPrefix x.head? (some networkInfoInit) = false) :
    ∃ r, findAddNetworkNick O x = .ok r ∧ Entering nick hm old new O c x r := by
  by_cases hx : ∃ g, Known O g ∧ keyOf O g = some (Casemapping.unknown.fold x)
  · obtain ⟨g, hg, hkey⟩ := hx
    refine ⟨(g, O), ?_, h.toCopied, .refl, hg, hkey, rfl, rfl, rfl, fun _ _ => rfl,
      fun g' hk _ => h.listed g' hk, fun n hn hq => ?_⟩
    · rw [Ctrlproxy.findAddNetworkNick, findNetworkNick_key h.unique h.info hg hkey]
      rfl
    · rcases hg with hg | hg
      · exact .inr hg
      · exact .inl (h.listed g ⟨hg, n, hn, .inl hq⟩)
  · have hno : ∀ g, Known O g → keyOf O g ≠ some (Casemapping.unknown.fold x) :=
      fun g hg e => hx ⟨g, hg, e⟩
    have hnew : nameOf (addNick O (newNetworkNick x)) O.next = some x := by
      rw [nameOf]
      exact congrArg (Option.bind · _) (Heap.set_same _ _ _)
    have hother : ∀ {g}, g ≠ O.next →
        (addNick O (newNetworkNick x)).nickHeap g = O.nickHeap g := fun e => Heap.set_other e
    refine ⟨(O.next, addNick O (newNetworkNick x)), ?_, h.toCopied.addNick hno, .addNick h.graph _,
      .inr (List.mem_append_right _ (List.mem_singleton_self _)), keyOf_eq hnew, rfl, rfl, rfl,
      fun g hg => nameOf_congr (hother (h.graph.known_lt hg).ne), ?_, ?_⟩
    · rw [Ctrlproxy.findAddNetworkNick, findNetworkNick_noKey h.unique h.info hno, ok_bind, h.info]
      dsimp only
      rw [hp]
      rfl
    · rintro g ⟨hmem, n, hn, hwhy⟩ hne
      rw [hother hne] at hn
      rcases List.mem_append.mp hmem with hmem | hmem
      · exact h.listed g ⟨hmem, n, hn, hwhy⟩
      · exact absurd (List.mem_singleton.mp hmem) hne
    · intro n hn hq
      obtain rfl := Option.some.inj ((Heap.set_same _ _ _).symm.trans hn)
      cases hq

/-- What JOIN leaves of the channel at `c`: the nick of this name is on it too. -/
structure Entered (c : Ref) (x : Str) (O O' : NetworkState) : Prop where
  channels : O'.channels = O.channels
  chan : ∃ ch ch', O.chanHeap c = some ch ∧ O'.chanHeap c = some ch' ∧
    ch' = { ch with nicks := ch'.nicks }
  member : ∃ g, nameOf O' g = some x ∧ ∀ g', OnChan O' c g' ↔ OnChan O c g' ∨ g' = g
  names : ∀ g, OnChan O c g → nameOf O' g = nameOf O g

/-- JOIN, of a nick that is not on the channel. -/
theorem Copy.joinLine (h : Copy nick hm old O) (hd : ChansDistinct old) (hc : c ∈ O.channels)
    (hne : name ≠ []) (hcomma : chr ',' ∉ name)
    (hname : chanKey old c = some (Casemapping.unknown.fold name)) (hbang : chr '!' ∈ w)
    (hw : upToBang w ≠ []) (hp : isPrefix (upToBang w).head? (some networkInfoInit) = false)
    (hme : Casemapping.unknown.fold (upToBang w) ≠ Casemapping.unknown.fold nick)
    (habs : ∀ g, OnChan O c g → keyOf O g ≠ some (Casemapping.unknown.fold (upToBang w)))
    (hs : SpelledIn new (some (upToBang w))) :
    ∃ O', stateStep O (now, vircParseLine (some w) [some (str "JOIN"), some name]) = .ok O' ∧
      Copy nick hm old O' ∧ Aside new c O O' ∧ Entered c (upToBang w) O O' := by
  obtain ⟨ch, hch, hnet, hnodup⟩ := h.graph.chan_live c hc
  have found : ∃ r, Ctrlproxy.findAddNetworkNick O (upToBang w) = .ok r ∧
      Entering nick hm old new O c (upToBang w) r := h.findAddNetworkNick hp
  obtain ⟨⟨g, O₁⟩, hadd, he⟩ := found
  have hk : commandOf (vircParseLine (some w) [some (str "JOIN"), some name]) = some .join :=
    commandOf_known (n := 1) rfl rfl (by simp [vaList])
  have hstep : stateStep O (now, vircParseLine (some w) [some (str "JOIN"), some name]) =
      (gStrsplit name (chr ',')).foldlM (joinChannel w (upToBang w)) O :=
    stateStep_handler (k := .join) hk
  have hgme : g ≠ meRef := by
    rintro rfl
    have := he.name
    rw [keyOf_eq he.copied.nameOf_me, Option.some_inj] at this
    exact hme this.symm
  have hc₁ : c ∈ O₁.channels := he.channels ▸ hc
  have hch₁ : O₁.chanHeap c = some ch := (congrFun he.chanHeap c).trans hch
  have same : ∀ g', OnChan O₁ c g' ↔ OnChan O c g' := by
    intro g'
    rw [OnChan, OnChan, he.chanHeap, he.membHeap]
  have habs₁ : ¬ OnChan O₁ c g := by
    intro hon
    have hon' := (same g).mp hon
    refine habs g hon' ?_
    rw [← keyOf_congr (he.names g (hon'.known h.graph hc))]
    exact he.name
  obtain ⟨gn, hgn, -⟩ := he.copied.graph.nick_live g he.known
  -- the membership
  have h₂ := he.copied.addMemb hc₁ he.known hch₁ hgn habs₁ modesClear
  set O₂ := addMemb O₁ c g ch gn modesClear with hO₂
  set gn₂ : NetworkNick := { gn with channelNicks := gn.channelNicks ++ [O₁.next] } with hgn₂
  have hheap₂ : O₂.nickHeap g = some gn₂ := Heap.set_same _ _ _
  have hname₂ : ∀ g', nameOf O₂ g' = nameOf O₁ g' := fun g' => nameOf_keep rfl hgn (by rfl) g'
  obtain ⟨a, ha⟩ := he.copied.unique.named g he.known
  have ha₂ : nameOf O₂ g = some a := (hname₂ g).trans ha
  have hfold : Casemapping.unknown.fold a = Casemapping.unknown.fold (upToBang w) := by
    have := he.name
    rw [keyOf_eq ha, Option.some_inj] at this
    exact this
  have hmask := h₂.hostmasks g gn₂ hgme hheap₂
  -- the hostmask
  have hx : (networkNickSetHostmask gn₂ w).nick = some (upToBang w) :=
    networkNickSetHostmask_name hbang hmask ((nameOf_eq hheap₂).symm.trans ha₂) hfold
  have h₃ := h₂.setNick he.known hheap₂ ha₂ hx hfold (by simp) (by simp)
    ((NameEdit.hostmask gn₂ w).hostmask_nick hmask) fun e => absurd e hgme
  have haside : Aside new c O (O₂.setNick g (networkNickSetHostmask gn₂ w)) :=
    (he.aside.trans (.addMemb he.copied.graph hgn _) h.graph).trans (.setNick ha₂ hx hfold hs) h.graph
  have hchan : O₂.chanHeap c = some { ch with nicks := ch.nicks ++ [O₁.next] } := Heap.set_same _ _ _
  have hmemb : O₂.membHeap O₁.next = some
      { modes := modesClear, globalNick := g, channel := c, lastUpdate := long0, lastFlags := none } :=
    Heap.set_same _ _ _
  have hlisted : ∀ g', Kept (O₂.setNick g (networkNickSetHostmask gn₂ w)) g' → Kept old g' := by
    intro g' hk'
    have hk₂ : Kept O₂ g' := hk'.of_setNick hheap₂ (by simp) (by simp)
    obtain ⟨hmem, n, hn, hwhy⟩ := hk₂
    by_cases hg' : g' = g
    · subst hg'
      obtain rfl := Option.some.inj (hheap₂.symm.trans hn)
      rcases hwhy with hq | hnil
      · exact (he.query gn hgn hq).resolve_right hgme
      · simp [hgn₂] at hnil
    · exact he.listed g' ⟨hmem, n, (Heap.set_other hg').symm.trans hn, hwhy⟩ hg'
  refine ⟨O₂.setNick g (networkNickSetHostmask gn₂ w), ?_, ⟨h₃, hlisted⟩, haside, ?_⟩
  · have hfind : findChannelNick O c (upToBang w) = .ok none := by
      rw [findChannelNick_eq h.graph hc hch, stripPrefix_of_not (h.info.symm ▸ hp)]
      exact findMember_noKey h.graph h.unique h.info hc hch habs
    have hstrip : stripPrefix (some O.info) (upToBang w) = upToBang w :=
      stripPrefix_of_not (h.info.symm ▸ hp)
    have hpre : isPrefix (upToBang w).head? (some O.info) = false := h.info.symm ▸ hp
    have hadd' : findAddChannelNick O c (upToBang w) = .ok (O₁.next, O₂) := by
      rw [findAddChannelNick, if_neg hw, NetworkState.chan_eq hch, ok_bind, if_neg (by simp [hnet]),
        hstrip, hpre]
      dsimp only
      rw [hfind, ok_bind, addChannelNick, hadd]
      simp only [ok_bind, pure_eq_ok, Bool.false_eq_true, if_false, prefixModes,
        NetworkState.chan_eq hch₁, NetworkState.nick_eq hgn, hO₂]
    obtain ⟨me, hme', hnick, -⟩ := h₃.me
    rw [hstep, gStrsplit_single hne hcomma, List.foldlM_cons, joinChannel, findAddChannel,
      h.toCopied.findChannel hd hc hname]
    simp only [ok_bind, pure_eq_ok, hadd', NetworkState.memb_eq hmemb, NetworkState.modifyNick,
      NetworkState.nick_eq hheap₂, NetworkState.nick_eq hme', hnick]
    rfl
  · refine ⟨he.channels, ⟨ch, _, hch, hchan, rfl⟩, ⟨g, nameOf_set_same.trans hx, fun g' => ?_⟩, ?_⟩
    · rw [← same g']
      constructor
      · rintro ⟨ch', m, cn, hch', hm, hcn, rfl⟩
        obtain rfl := Option.some.inj (hchan.symm.trans hch')
        rcases List.mem_append.mp hm with hm | hm
        · obtain ⟨cn', gn', l, -⟩ := he.copied.graph.link_of_chan hc₁ hch₁ hm
          have hsame : O₂.membHeap m = O₁.membHeap m :=
            Heap.set_other (he.copied.graph.memb_lt l.memb).ne
          exact .inl ⟨ch, m, cn, hch₁, hm, hsame.symm.trans hcn, rfl⟩
        · rw [List.mem_singleton.mp hm] at hcn
          obtain rfl := Option.some.inj (hmemb.symm.trans hcn)
          exact .inr rfl
      · rintro (⟨ch', m, cn, hch', hm, hcn, rfl⟩ | rfl)
        · obtain rfl := Option.some.inj (hch₁.symm.trans hch')
          have hsame : O₂.membHeap m = O₁.membHeap m :=
            Heap.set_other (he.copied.graph.memb_lt hcn).ne
          exact ⟨_, m, cn, hchan, List.mem_append_left _ hm, hsame.trans hcn, rfl⟩
        · exact ⟨_, O₁.next, _, hchan, List.mem_append_right _ (List.mem_singleton_self _), hmemb, rfl⟩
    · intro g' hon
      have hne' : g' ≠ g := by
        rintro rfl
        exact habs₁ ((same g').mpr hon)
      exact (nameOf_set_other hne').trans ((hname₂ g').trans (he.names g' (hon.known h.graph hc)))

end

/-! ### Topic -/

section
variable {nick hm : Str} {old O : NetworkState} {c : Ref} {now : Long} {o w x name : Str}
  {ch : ChannelState}

/-- TOPIC, with a topic and someone who set it. -/
theorem Copied.topicLine (h : Copied nick hm old O) (hd : ChansDistinct old) (hc : c ∈ O.channels)
    (hname : chanKey old c = some (Casemapping.unknown.fold name)) (hch : O.chanHeap c = some ch) :
    stateStep O (now, vircParseLine (some o) [some (str "TOPIC"), some name, some w]) =
      .ok (O.setChan c { ch with
        topic := some w, topicSetTime := now, topicSetBy := some (upToBang o) }) := by
  have hk : commandOf (vircParseLine (some o) [some (str "TOPIC"), some name, some w]) =
      some .topic := commandOf_known (n := 2) rfl rfl (by simp [vaList])
  rw [stateStep_handler (k := .topic) hk]
  change (Ctrlproxy.findChannel O name >>= _) = _
  rw [h.findChannel hd hc hname, ok_bind]
  change O.modifyChan c _ = _
  rw [NetworkState.modifyChan, NetworkState.chan_eq hch]
  rfl

/-- TOPIC, of nobody. -/
theorem Copied.topicLine_nobody (h : Copied nick hm old O) (hd : ChansDistinct old)
    (hc : c ∈ O.channels) (hname : chanKey old c = some (Casemapping.unknown.fold name)) :
    stateStep O (now, vircParseLine none [some (str "TOPIC"), some name, some w]) = .ok O := by
  have hk : commandOf (vircParseLine none [some (str "TOPIC"), some name, some w]) =
      some .topic := commandOf_known (n := 2) rfl rfl (by simp [vaList])
  have hstep : stateStep O (now, vircParseLine none [some (str "TOPIC"), some name, some w]) =
      (Ctrlproxy.findChannel O name >>= fun _ => .ok O) := stateStep_handler (k := .topic) hk
  rw [hstep, h.findChannel hd hc hname]
  rfl

/-- A TOPIC line without a topic has too few arguments. -/
theorem topicLine_bare (o : Option Str) :
    stateStep O (now, vircParseLine o [some (str "TOPIC"), some name, none]) = .ok O :=
  stateStep_none rfl

/-- A MODE line without modes has too few arguments. -/
theorem modeLine_bare (o : Option Str) :
    stateStep O (now, vircParseLine o [some (str "MODE"), some name, none]) = .ok O :=
  stateStep_none rfl

end

/-! ### Modes -/

/-- The kinds of mode that are not set without an argument. -/
def ChanmodeType.asks : ChanmodeType → Bool
  | .nicklist | .setting | .optSetting => true
  | .bool | .unknown => false

/-- The letter asks for an argument. -/
def takesArg (b : Byte) : Bool :=
  isPrefixMode networkInfoInit b || match networkChanmodeType b networkInfoInit with
    | .ok t => t.asks
    | .error _ => false

/-- The letter is that of a flag of a channel. -/
def isFlag (b : Byte) : Bool :=
  match networkChanmodeType b networkInfoInit with
  | .ok .bool => true
  | _ => false

/-- The modes after a MODE line that sets these letters, and has no arguments for them. -/
def modesAfter (m : Modes) (w : Str) : Modes := fun i =>
  m i || (w.takeWhile fun b => !takesArg b).any fun b => isFlag b && decide (b.1 = i.1)

theorem chanmodeType_init (b : Byte) : ∃ t, networkChanmodeType b networkInfoInit = .ok t := by
  have hgroups : networkInfoInit.chanmodes.getD default_chanmodes = default_chanmodes := rfl
  rw [networkChanmodeType, hgroups, default_chanmodes]
  simp only [chanmodeTypeFrom]
  split
  · exact ⟨_, rfl⟩
  · split
    · exact ⟨_, rfl⟩
    · split
      · exact ⟨_, rfl⟩
      · split <;> exact ⟨_, rfl⟩

theorem isFlag_iff (b : Byte) : isFlag b = true ↔ networkChanmodeType b networkInfoInit = .ok .bool := by
  obtain ⟨t, ht⟩ := chanmodeType_init b
  rw [isFlag, ht]
  cases t <;> simp

theorem mem_of_isFlag {b : Byte} (h : isFlag b = true) : b ∈ str "imnpsta" := by
  rw [isFlag_iff] at h
  have hgroups : networkInfoInit.chanmodes.getD default_chanmodes = default_chanmodes := rfl
  rw [networkChanmodeType, hgroups, default_chanmodes] at h
  simp only [chanmodeTypeFrom] at h
  split at h
  · cases h
  · split at h
    · cases h
    · split at h
      · cases h
      · split at h
        · assumption
        · cases h

theorem isFlag_lt {b : Byte} (h : isFlag b = true) : b.1 < MAXMODES := by
  have table : ∀ b ∈ str "imnpsta", b.1 < MAXMODES := by decide
  exact table b (mem_of_isFlag h)

theorem isFlag_bare {b : Byte} (h : isFlag b = true) : takesArg b = false := by
  have table : ∀ b ∈ str "imnpsta", takesArg b = false := by decide
  exact table b (mem_of_isFlag h)

section
variable {s : NetworkState} {c : Ref} {ch : ChannelState} {now : Long} {by' : Option Ref}

theorem takesArg_eq {b : Byte} {t : ChanmodeType}
    (ht : networkChanmodeType b networkInfoInit = .ok t) :
    takesArg b = (isPrefixMode networkInfoInit b || t.asks) := by
  rw [takesArg, ht]

/-- A letter that asks for an argument ends the change. -/
theorem channelStateChangeMode_asks (hinfo : s.info = networkInfoInit) {b : Byte}
    (h : takesArg b = true) : channelStateChangeMode now by' c true b none s = .ok (s, none) := by
  obtain ⟨t, ht⟩ := chanmodeType_init b
  rw [takesArg_eq ht, Bool.or_eq_true] at h
  rw [channelStateChangeMode, hinfo, ht, ok_bind]
  cases t with
  | nicklist | setting | optSetting => rfl
  | bool | unknown =>
      rw [if_neg (by decide), if_neg (by decide), if_pos (h.resolve_right (by decide))]
      rfl

/-- A flag is set. -/
theorem channelStateChangeMode_flag (hinfo : s.info = networkInfoInit)
    (hch : s.chanHeap c = some ch) {b : Byte} (h : isFlag b = true) :
    channelStateChangeMode now by' c true b none s =
      .ok (s.setChan c { ch with modes := ModeArray.set ch.modes ⟨b.1, isFlag_lt h⟩ true }, some 0) := by
  have ht := (isFlag_iff b).mp h
  have hbare := isFlag_bare h
  rw [takesArg_eq ht, Bool.or_eq_false_iff] at hbare
  have hslot : modeSlot b = .ok ⟨b.1, isFlag_lt h⟩ := dif_pos (isFlag_lt h)
  rw [channelStateChangeMode, hinfo, ht, ok_bind, if_neg (by decide), if_neg (by decide),
    if_neg (by simp [hbare.1]), if_pos rfl, changeBool, NetworkState.chan_eq hch, ok_bind,
    modesChangeMode, hslot]
  rfl

/-- Any other letter is passed over. -/
theorem channelStateChangeMode_other (hinfo : s.info = networkInfoInit) {b : Byte}
    (ht : takesArg b = false) (h : ¬ isFlag b = true) :
    channelStateChangeMode now by' c true b none s = .ok (s, some 1) := by
  obtain ⟨t, hb⟩ := chanmodeType_init b
  rw [takesArg_eq hb, Bool.or_eq_false_iff] at ht
  rw [isFlag_iff, hb] at h
  rw [channelStateChangeMode, hinfo, hb, ok_bind]
  cases t with
  | nicklist | setting | optSetting => cases ht.2
  | bool => exact absurd rfl h
  | unknown =>
      rw [if_neg (by decide), if_neg (by decide), if_neg (by simp [ht.1]), if_neg (by decide)]
      rfl

theorem modesAfter_nil (m : Modes) : modesAfter m [] = m := by
  funext i
  simp [modesAfter]

theorem modesAfter_stop {m : Modes} {b : Byte} (h : takesArg b = true) (w : Str) :
    modesAfter m (b :: w) = m := by
  funext i
  simp [modesAfter, h]

theorem modesAfter_flag {m : Modes} {b : Byte} (h : isFlag b = true) (w : Str) :
    modesAfter m (b :: w) = modesAfter (ModeArray.set m ⟨b.1, isFlag_lt h⟩ true) w := by
  funext i
  by_cases hi : i = ⟨b.1, isFlag_lt h⟩
  · subst hi
    simp [modesAfter, isFlag_bare h, h, ModeArray.set]
  · have hne : b.1 ≠ i.1 := fun e => hi (Fin.ext e.symm)
    simp [modesAfter, isFlag_bare h, ModeArray.set, hi, hne]

theorem modesAfter_skip {m : Modes} {b : Byte} (ht : takesArg b = false) (h : ¬ isFlag b = true)
    (w : Str) : modesAfter m (b :: w) = modesAfter m w := by
  funext i
  simp [modesAfter, ht, h]

theorem setChan_setChan (s : NetworkState) (c : Ref) (ch ch' : ChannelState) :
    (s.setChan c ch).setChan c ch' = s.setChan c ch' := by
  simp only [NetworkState.setChan, Heap.set_set]

/-- A mode string without signs and arguments sets flags, up to the first letter that asks for an
argument. -/
theorem channelModeLoop_bare {l : IrcLine} (hl : l.arg 3 = .ok none) (w : Str)
    (hsign : ∀ b ∈ w, b ≠ chr '+' ∧ b ≠ chr '-') (hinfo : s.info = networkInfoInit)
    (hch : s.chanHeap c = some ch) : channelModeLoop now l by' c w true 3 s =
      .ok (s.setChan c { ch with modes := modesAfter ch.modes w }) := by
  induction w generalizing s ch with
  | nil =>
      rw [modesAfter_nil, setChan_self hch]
      rfl
  | cons b w ih =>
      obtain ⟨hplus, hminus⟩ := hsign b List.mem_cons_self
      have ih' := fun {s ch} => @ih s ch fun b hb => hsign b (List.mem_cons_of_mem _ hb)
      rw [channelModeLoop_change hplus hminus, hl, ok_bind]
      cases ht : takesArg b with
      | true =>
          rw [channelStateChangeMode_asks hinfo ht, modesAfter_stop ht, setChan_self hch]
          rfl
      | false =>
          by_cases hf : isFlag b = true
          · have hset := ih' (s := s.setChan c
              { ch with modes := ModeArray.set ch.modes ⟨b.1, isFlag_lt hf⟩ true }) hinfo
              (Heap.set_same _ _ _)
            rw [channelStateChangeMode_flag hinfo hch hf, modesAfter_flag hf]
            refine hset.trans ?_
            rw [setChan_setChan]
          · rw [channelStateChangeMode_other hinfo ht hf, modesAfter_skip ht hf]
            exact ih' hinfo hch

/-- MODE, for a channel. -/
theorem Copied.modeLine {nick hm : Str} {old O : NetworkState} {o name w : Str}
    (h : Copied nick hm old O) (hd : ChansDistinct old) (hc : c ∈ O.channels)
    (hname : chanKey old c = some (Casemapping.unknown.fold name))
    (htarget : isChannelname name networkInfoInit = .ok true) (hch : O.chanHeap c = some ch)
    (hsign : ∀ b ∈ w, b ≠ chr '+' ∧ b ≠ chr '-') :
    stateStep O (now, vircParseLine (some o) [some (str "MODE"), some name, some (chr '+' :: w)]) =
      .ok (O.setChan c { ch with modes := modesAfter ch.modes w }) := by
  set l := vircParseLine (some o) [some (str "MODE"), some name, some (chr '+' :: w)] with hl
  have hk : commandOf l = some .mode := commandOf_known (n := 2) rfl rfl (by simp [vaList])
  have hstep : stateStep O (now, l) = handleMode now O l := stateStep_handler (k := .mode) hk
  have harg : l.arg 3 = .ok none := rfl
  have htotal : ∃ r, findNetworkNick O (upToBang o) = .ok r := by
    by_cases hx : ∃ g, Known O g ∧ keyOf O g = some (Casemapping.unknown.fold (upToBang o))
    · obtain ⟨g, hg, hkey⟩ := hx
      exact ⟨_, findNetworkNick_key h.unique h.info hg hkey⟩
    · exact ⟨_, findNetworkNick_noKey h.unique h.info fun g hg e => hx ⟨g, hg, e⟩⟩
  obtain ⟨by', hby⟩ := htotal
  have htarget' : l.argStr 1 = .ok name := rfl
  have hchange : l.argStr 2 = .ok (chr '+' :: w) := rfl
  have hnick : lineGetNick l = .ok (upToBang o) := rfl
  rw [hstep, handleMode, htarget', ok_bind, hchange, ok_bind, h.info, htarget, ok_bind, if_pos rfl,
    h.findChannel hd hc hname, ok_bind]
  dsimp only
  rw [hnick, ok_bind, hby, ok_bind, channelModeLoop_plus rfl,
    channelModeLoop_bare harg w hsign h.info hch]

/-- MODE, of nobody. -/
theorem Copied.modeLine_nobody {nick hm : Str} {old O : NetworkState} {name w : Str}
    (h : Copied nick hm old O) (hd : ChansDistinct old) (hc : c ∈ O.channels)
    (hname : chanKey old c = some (Casemapping.unknown.fold name))
    (htarget : isChannelname name networkInfoInit = .ok true) :
    stateStep O (now, vircParseLine none [some (str "MODE"), some name, some w]) =
      .error .assertion := by
  set l := vircParseLine none [some (str "MODE"), some name, some w] with hl
  have hk : commandOf l = some .mode := commandOf_known (n := 2) rfl rfl (by simp [vaList])
  have hstep : stateStep O (now, l) = handleMode now O l := stateStep_handler (k := .mode) hk
  have htarget' : l.argStr 1 = .ok name := rfl
  have hchange : l.argStr 2 = .ok w := rfl
  rw [hstep, handleMode, htarget', ok_bind, hchange, ok_bind, h.info, htarget, ok_bind, if_pos rfl,
    h.findChannel hd hc hname, ok_bind]
  rfl

end

/-! ### Which modes a MODE line without arguments can bring -/

/-- The modes `m'` come from `m` by setting flags, none of them behind a letter of `m'` that asks
for an argument. -/
structure Addable (m m' : Modes) : Prop where
  kept : ∀ i, m i = true → m' i = true
  flags : ∀ i b, b.1 = i.1 → m' i = true → m i = false → isFlag b = true
  before : ∀ i j b, b.1 = j.1 → j < i → m' i = true → m i = false → m' j = true → takesArg b = false

/-- What stands before an element of a sorted list that the test has not stopped at. -/
theorem takeWhile_before {w : Str} (hw : w.Pairwise fun a b => a.1 < b.1) {p : Byte → Bool} {b b' : Byte}
    (hb : b ∈ w.takeWhile p) (hb' : b' ∈ w) (hlt : b'.1 < b.1) : p b' = true := by
  induction w with
  | nil => cases hb'
  | cons a w ih =>
      obtain ⟨ha, hw⟩ := List.pairwise_cons.mp hw
      rw [List.takeWhile_cons] at hb
      split at hb
      · next hp =>
        rcases List.mem_cons.mp hb' with rfl | hin
        · exact hp
        · rcases List.mem_cons.mp hb with rfl | hb
          · exact absurd (ha b' hin) (Nat.lt_asymm hlt)
          · exact ih hw hb hin
      · cases hb

/-- The test does not stop before an element of a sorted list when it accepts all that are not
greater. -/
theorem mem_takeWhile_sorted {w : Str} (hw : w.Pairwise fun a b => a.1 < b.1) {p : Byte → Bool} {b : Byte}
    (hb : b ∈ w) (hp : ∀ b' ∈ w, b'.1 ≤ b.1 → p b' = true) : b ∈ w.takeWhile p := by
  induction w with
  | nil => cases hb
  | cons a w ih =>
      obtain ⟨ha, hw⟩ := List.pairwise_cons.mp hw
      rcases List.mem_cons.mp hb with rfl | hb
      · rw [List.takeWhile_cons, if_pos (hp b List.mem_cons_self le_rfl)]
        exact List.mem_cons_self
      · rw [List.takeWhile_cons, if_pos (hp a List.mem_cons_self (ha b hb).le)]
        exact List.mem_cons_of_mem _ (ih hw hb fun b' hb' => hp b' (List.mem_cons_of_mem _ hb'))

/-- A channel's own modes change nothing. -/
theorem modesAfter_self (m : Modes) : modesAfter m (mode2stringBody m) = m := by
  funext i
  rw [modesAfter]
  cases hi : m i with
  | true => rfl
  | false =>
      rw [Bool.false_or]
      refine Bool.eq_false_iff.mpr fun hx => ?_
      obtain ⟨b, hb, hf⟩ := List.any_eq_true.mp hx
      obtain ⟨j, hj, e⟩ := mem_mode2stringBody.mp ((List.takeWhile_sublist _).subset hb)
      rw [Bool.and_eq_true, decide_eq_true_eq] at hf
      rw [show j = i from Fin.ext (e.trans hf.2), hi] at hj
      cases hj

/-- No letter sets the terminator. -/
theorem modesAfter_keepsNul (m : Modes) (w : Str) : KeepsNul m (modesAfter m w) := by
  intro h
  rw [modesAfter, Bool.or_eq_true] at h
  refine h.resolve_right fun hx => ?_
  obtain ⟨b, -, hf⟩ := List.any_eq_true.mp hx
  rw [Bool.and_eq_true, decide_eq_true_eq] at hf
  exact b.2.1.ne' hf.2

/-- **A MODE line without arguments** brings exactly the modes that are addable. -/
theorem modesAfter_eq_iff {m m' : Modes} (h0 : m' ⟨0, by decide⟩ = false) :
    modesAfter m (mode2stringBody m') = m' ↔ Addable m m' := by
  have letter : ∀ i, m' i = true → ∃ b ∈ mode2stringBody m', b.1 = i.1 := by
    intro i hi
    have hpos : 0 < i.1 := by
      rcases Nat.eq_zero_or_pos i.1 with e | e
      · rw [show i = ⟨0, by decide⟩ from Fin.ext e, h0] at hi
        cases hi
      · exact e
    exact ⟨⟨i.1, hpos, Nat.lt_succ_of_lt i.2⟩, mem_mode2stringBody.mpr ⟨i, hi, rfl⟩, rfl⟩
  have added : ∀ i, m i = false → (modesAfter m (mode2stringBody m') i = true ↔
      ∃ b ∈ (mode2stringBody m').takeWhile fun b => !takesArg b, isFlag b = true ∧ b.1 = i.1) := by
    intro i hi
    rw [modesAfter, hi, Bool.false_or, List.any_eq_true]
    simp
  have hsorted := mode2stringBody_sorted m'
  constructor
  · intro h
    refine ⟨fun i hi => ?_, fun i b hb hi hno => ?_, fun i j b hb hij hi hno hj => ?_⟩
    · rw [← h, modesAfter, hi, Bool.true_or]
    · obtain ⟨b', -, hf, e⟩ := (added i hno).mp ((congrFun h i).trans hi)
      rwa [show b = b' from Subtype.ext (hb.trans e.symm)]
    · obtain ⟨b', hb', -, e⟩ := (added i hno).mp ((congrFun h i).trans hi)
      obtain ⟨b'', hb'', e'⟩ := letter j hj
      obtain rfl : b = b'' := Subtype.ext (hb.trans e'.symm)
      have hp := takeWhile_before hsorted hb' hb'' (by rw [e, e']; exact hij)
      simpa using hp
  · intro h
    funext i
    cases hi : m i with
    | true => rw [modesAfter, hi, Bool.true_or, h.kept i hi]
    | false =>
        cases hi' : m' i with
        | true =>
            obtain ⟨b, hb, e⟩ := letter i hi'
            have hf := h.flags i b e hi' hi
            refine (added i hi).mpr ⟨b, mem_takeWhile_sorted hsorted hb fun b' hb' hle => ?_, hf, e⟩
            rcases hle.lt_or_eq with hlt | heq
            · obtain ⟨j, hj, e'⟩ := mem_mode2stringBody.mp hb'
              rw [h.before i j b' e'.symm (by rw [Fin.lt_def, e', ← e]; exact hlt) hi' hi hj]
              rfl
            · rw [Subtype.ext heq, isFlag_bare hf]
              rfl
        | false =>
            refine Bool.eq_false_iff.mpr fun hx => ?_
            obtain ⟨b, hb, -, e⟩ := (added i hi).mp hx
            obtain ⟨j, hj, e'⟩ := mem_mode2stringBody.mp ((List.takeWhile_sublist _).subset hb)
            rw [show j = i from Fin.ext (e'.trans e), hi'] at hj
            cases hj

end Ctrlproxy
