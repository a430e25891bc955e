import Ctrlproxy.Client.Diff
import Ctrlproxy.Client.Observer
import Ctrlproxy.State.Lookup

/-!
# Client — a copy of the old state, while it is changed

The lines of a difference are handled by a copy `O` of the old state.  They take members out of
channels, rename nicks up to case, add members, and replace topics and modes (`Copy`).  What a line
does to one channel leaves the others as they are (`Aside`).

Nicks and channels of the copy keep the addresses they have in the old state.
-/

namespace Ctrlproxy
open Outcome

/-! ### Names up to case -/

/-- The name of a nick as it is compared. -/
def keyOf (s : NetworkState) (g : Ref) : Option Str := (nameOf s g).map Casemapping.unknown.fold

/-- The name of a channel. -/
def chanName (s : NetworkState) (c : Ref) : Option Str := (s.chanHeap c).map (·.name)

/-- The name of a channel as it is compared. -/
def chanKey (s : NetworkState) (c : Ref) : Option Str :=
  (chanName s c).map Casemapping.unknown.fold

/-- No two channels have the same name up to case. -/
def ChansDistinct (s : NetworkState) : Prop :=
  ∀ c ∈ s.channels, ∀ c' ∈ s.channels, chanKey s c = chanKey s c' → c = c'

/-- The nick at `g` is on the channel at `c`. -/
def OnChan (s : NetworkState) (c g : Ref) : Prop :=
  ∃ ch m cn, s.chanHeap c = some ch ∧ m ∈ ch.nicks ∧ s.membHeap m = some cn ∧ cn.globalNick = g

/-- A nick that stays when it leaves its last channel, or is on none. -/
def Kept (s : NetworkState) (g : Ref) : Prop :=
  g ∈ s.nicks ∧ ∃ n, s.nickHeap g = some n ∧ (n.query = true ∨ n.channelNicks = [])

section
variable {s : NetworkState} {g c : Ref} {a : Str}

theorem keyOf_eq (ha : nameOf s g = some a) : keyOf s g = some (Casemapping.unknown.fold a) := by
  rw [keyOf, ha, Option.map_some]

theorem keyOf_congr {s' : NetworkState} {g' : Ref} (h : nameOf s' g' = nameOf s g) :
    keyOf s' g' = keyOf s g := by
  rw [keyOf, keyOf, h]

theorem OnChan.known (hg : Graph s) (hc : c ∈ s.channels) (h : OnChan s c g) : Known s g := by
  obtain ⟨ch, m, cn, hch, hm, hcn, rfl⟩ := h
  obtain ⟨cn', gn, hl, -⟩ := hg.link_of_chan hc hch hm
  obtain rfl := Option.some.inj (hl.memb.symm.trans hcn)
  exact hl.known

/-- A nick that is on a channel has a membership. -/
theorem OnChan.memberships (hg : Graph s) (hc : c ∈ s.channels) (h : OnChan s c g)
    {n : NetworkNick} (hn : s.nickHeap g = some n) : ∃ m ∈ n.channelNicks, ∃ cn,
      s.membHeap m = some cn ∧ cn.channel = c := by
  obtain ⟨ch, m, cn, hch, hm, hcn, rfl⟩ := h
  obtain ⟨cn', gn, hl, e⟩ := hg.link_of_chan hc hch hm
  obtain rfl := Option.some.inj (hl.memb.symm.trans hcn)
  obtain rfl := Option.some.inj (hl.nick.symm.trans hn)
  exact ⟨m, hl.in_nick, cn', hcn, e⟩

theorem OnChan.unused (hg : Graph s) (hc : c ∈ s.channels) (h : OnChan s c g) {n : NetworkNick}
    (hn : s.nickHeap g = some n) : n.channelNicks ≠ [] := by
  obtain ⟨m, hm, -⟩ := h.memberships hg hc hn
  exact List.ne_nil_of_mem hm

end

/-! ### Searches by name -/

section
variable {s : NetworkState} {g c m : Ref} {x : Str}

/-- A state that announces what a fresh one does compares names without a mapping announced. -/
theorem casemapOf_init (hinfo : s.info = networkInfoInit) : casemapOf (some s.info) = .unknown := by
  rw [hinfo]
  rfl

/-- No two nicks have the same name up to case. -/
theorem Unique.key_inj (h : Unique .unknown s) {g' : Ref} (hg : Known s g) (hg' : Known s g')
    (e : keyOf s g = keyOf s g') : g = g' :=
  h.nickKey_inj hg hg' e

/-- A nick is found by its name. -/
theorem findNetworkNick_key (h : Unique .unknown s) (hinfo : s.info = networkInfoInit)
    (hg : Known s g) (hx : keyOf s g = some (Casemapping.unknown.fold x)) :
    findNetworkNick s x = .ok (some g) :=
  findNetworkNick_known (casemapOf_init hinfo) h hg hx

/-- No nick is found by a name that none has. -/
theorem findNetworkNick_noKey (h : Unique .unknown s) (hinfo : s.info = networkInfoInit)
    (hx : ∀ g, Known s g → keyOf s g ≠ some (Casemapping.unknown.fold x)) :
    findNetworkNick s x = .ok none :=
  findNetworkNick_unknown (casemapOf_init hinfo) h hx

/-- A member is found by the name of its nick. -/
theorem findMember_key (hg : Graph s) (h : Unique .unknown s) (hinfo : s.info = networkInfoInit)
    {ch : ChannelState} (hc : c ∈ s.channels) (hch : s.chanHeap c = some ch) (hm : m ∈ ch.nicks)
    {cn : ChannelNick} (hcn : s.membHeap m = some cn)
    (hx : keyOf s cn.globalNick = some (Casemapping.unknown.fold x)) :
    findMember s (some s.info) x ch.nicks = .ok (some m) :=
  findMember_listed hg (casemapOf_init hinfo) h hc hch hm ((membKey_eq hcn).trans hx)

/-- No member is found by a name that none has. -/
theorem findMember_noKey (hg : Graph s) (h : Unique .unknown s) (hinfo : s.info = networkInfoInit)
    {ch : ChannelState} (hc : c ∈ s.channels) (hch : s.chanHeap c = some ch)
    (hx : ∀ g, OnChan s c g → keyOf s g ≠ some (Casemapping.unknown.fold x)) :
    findMember s (some s.info) x ch.nicks = .ok none := by
  refine findMember_absent hg (casemapOf_init hinfo) h hc hch fun r hr e => ?_
  obtain ⟨cn, gn, hl, -⟩ := hg.link_of_chan hc hch hr
  rw [membKey_eq hl.memb] at e
  exact hx cn.globalNick ⟨ch, r, cn, hch, hr, hl.memb, rfl⟩ e

theorem chanKey_eq {ch : ChannelState} (hch : s.chanHeap c = some ch) :
    chanKey s c = some (Casemapping.unknown.fold ch.name) := by
  rw [chanKey, chanName, hch, Option.map_some, Option.map_some]

/-- The test of the search for a channel. -/
theorem chanTest (hg : Graph s) (hinfo : s.info = networkInfoInit) (hc : c ∈ s.channels) (x : Str) :
    (do
      let ch ← s.chan c
      ircEq (some s.info) (some ch.name) (some x)) =
    .ok (decide (chanKey s c = some (Casemapping.unknown.fold x))) := by
  have hkey : chanKey s c = channelKey .unknown s c := Option.map_map _ _ _
  rw [channel_test hg (casemapOf_init hinfo) hc x, hkey]

/-- A channel is found by its name. -/
theorem findChannel_key (hg : Graph s) (hinfo : s.info = networkInfoInit) (hd : ChansDistinct s)
    (hc : c ∈ s.channels) (hx : chanKey s c = some (Casemapping.unknown.fold x)) :
    findChannel s x = .ok (some c) := by
  rw [findChannel]
  refine findFirst_unique (fun r hr => chanTest hg hinfo hr x) hc (decide_eq_true hx) fun r hr e => ?_
  exact hd r hr c hc ((of_decide_eq_true e).trans hx.symm)

/-- No channel is found by a name that none has. -/
theorem findChannel_noKey (hg : Graph s) (hinfo : s.info = networkInfoInit)
    (hx : ∀ c ∈ s.channels, chanKey s c ≠ some (Casemapping.unknown.fold x)) :
    findChannel s x = .ok none := by
  rw [findChannel, findFirst_eq_find? fun r hr => chanTest hg hinfo hr x]
  refine congrArg Except.ok (List.find?_eq_none.mpr fun r hr e => ?_)
  exact hx r hr (of_decide_eq_true e)

end

/-! ### The copy -/

/-- What holds of the copy `O` all along, also while a nick is being added: it is consistent, names
are unique, the user is the same, its channels are old ones, and the nicks that stay are there. -/
structure Copied (nick hm : Str) (old O : NetworkState) : Prop where
  graph : Graph O
  info : O.info = networkInfoInit
  unique : Unique .unknown O
  identity : identityOf O = some (some nick, some hm)
  hostmasks : HostmaskNicks O
  channels : ∀ c ∈ O.channels, c ∈ old.channels ∧ chanName O c = chanName old c
  kept : ∀ g, Kept old g → g ∈ O.nicks ∧ keyOf O g = keyOf old g
  queries : ∀ g ∈ old.nicks, ∀ n, old.nickHeap g = some n → n.query = true →
    ∃ n', O.nickHeap g = some n' ∧ n'.query = true

/-- Nothing else but the members of the channels is in `O->nicks`. -/
structure Copy (nick hm : Str) (old O : NetworkState) : Prop extends Copied nick hm old O where
  listed : ∀ g, Kept O g → Kept old g

section
variable {nick hm : Str} {old O : NetworkState} {g c : Ref}

theorem Copied.me (h : Copied nick hm old O) :
    ∃ me, O.nickHeap meRef = some me ∧ me.nick = some nick ∧ me.hostmask = some hm := by
  obtain ⟨me, hme, e⟩ := Option.map_eq_some_iff.mp h.identity
  rw [Prod.mk.injEq] at e
  exact ⟨me, hme, e.1, e.2⟩

theorem Copied.nameOf_me (h : Copied nick hm old O) : nameOf O meRef = some nick := by
  obtain ⟨me, hme, hnick, -⟩ := h.me
  exact (nameOf_eq hme).trans hnick

theorem Copied.chanKey_eq (h : Copied nick hm old O) (hc : c ∈ O.channels) :
    chanKey O c = chanKey old c := by
  rw [chanKey, chanKey, (h.channels c hc).2]

/-- A channel of the copy is found by its name. -/
theorem Copied.findChannel (h : Copied nick hm old O) (hd : ChansDistinct old) (hc : c ∈ O.channels)
    {x : Str} (hx : chanKey old c = some (Casemapping.unknown.fold x)) :
    findChannel O x = .ok (some c) := by
  refine findChannel_key h.graph h.info (fun a ha b hb e => ?_) hc ((h.chanKey_eq hc).trans hx)
  rw [h.chanKey_eq ha, h.chanKey_eq hb] at e
  exact hd a (h.channels a ha).1 b (h.channels b hb).1 e

/-- A nick gets other fields, and no other name but up to case. -/
theorem Copied.setNick (h : Copied nick hm old O) {n n' : NetworkNick} {a x : Str}
    (hg : Known O g) (hn : O.nickHeap g = some n) (ha : nameOf O g = some a)
    (hx : n'.nick = some x) (e : Casemapping.unknown.fold a = Casemapping.unknown.fold x)
    (hl : n'.channelNicks = n.channelNicks) (hq : n'.query = n.query) (hm' : HostmaskNick n')
    (hme : g = meRef → n'.nick = n.nick ∧ n'.hostmask = n.hostmask) :
    Copied nick hm old (O.setNick g n') where
  graph := h.graph.setNick hn hl (hq ▸ id)
  info := h.info
  unique := h.unique.setName_fold hg ha hx e
  identity := by
    refine Eq.trans ?_ h.identity
    by_cases hg' : g = meRef
    · exact identityOf_keep rfl hn (hme hg').1 (hme hg').2
    · exact identityOf_congr (Heap.set_other (Ne.symm hg'))
  hostmasks := h.hostmasks.set rfl fun _ => hm'
  channels := h.channels
  kept := by
    intro g' hk
    obtain ⟨hmem, hkey⟩ := h.kept g' hk
    refine ⟨hmem, Eq.trans ?_ hkey⟩
    by_cases hg' : g' = g
    · subst hg'
      rw [keyOf_eq ha, keyOf_eq (nameOf_set_same.trans hx), e]
    · exact keyOf_congr (nameOf_set_other hg')
  queries := by
    intro g' hmem n₀ hn₀ hq₀
    obtain ⟨n₁, hn₁, hq₁⟩ := h.queries g' hmem n₀ hn₀ hq₀
    by_cases hg' : g' = g
    · subst hg'
      obtain rfl := Option.some.inj (hn.symm.trans hn₁)
      exact ⟨n', Heap.set_same _ _ _, hq.trans hq₁⟩
    · exact ⟨n₁, (Heap.set_other hg').trans hn₁, hq₁⟩

theorem Kept.of_setNick {n n' : NetworkNick} (hn : O.nickHeap g = some n)
    (hl : n'.channelNicks = n.channelNicks) (hq : n'.query = n.query) {g' : Ref}
    (h : Kept (O.setNick g n') g') : Kept O g' := by
  obtain ⟨hmem, n₁, hn₁, hwhy⟩ := h
  refine ⟨hmem, ?_⟩
  rw [NetworkState.setNick_nickHeap, Heap.set_apply] at hn₁
  split at hn₁
  · subst_vars
    cases hn₁
    exact ⟨n, hn, hq ▸ hl ▸ hwhy⟩
  · exact ⟨n₁, hn₁, hwhy⟩

theorem Copy.setNick (h : Copy nick hm old O) {n n' : NetworkNick} {a x : Str}
    (hg : Known O g) (hn : O.nickHeap g = some n) (ha : nameOf O g = some a)
    (hx : n'.nick = some x) (e : Casemapping.unknown.fold a = Casemapping.unknown.fold x)
    (hl : n'.channelNicks = n.channelNicks) (hq : n'.query = n.query) (hm' : HostmaskNick n')
    (hme : g = meRef → n'.nick = n.nick ∧ n'.hostmask = n.hostmask) :
    Copy nick hm old (O.setNick g n') where
  toCopied := h.toCopied.setNick hg hn ha hx e hl hq hm' hme
  listed := fun g' hk => h.listed g' (hk.of_setNick hn hl hq)

/-- A channel gets another topic or other modes. -/
theorem Copy.setChan (h : Copy nick hm old O) {ch ch' : ChannelState} (hch : O.chanHeap c = some ch)
    (hname : ch'.name = ch.name) (hn : ch'.nicks = ch.nicks) (hw : ch'.network = ch.network)
    (hmodes : KeepsNul ch.modes ch'.modes) : Copy nick hm old (O.setChan c ch') where
  graph := h.graph.setChan hch hn hw
  info := h.info
  unique := Quiet.unique (.chan hch hname hn hw hmodes) h.graph h.unique
  identity := h.identity
  hostmasks := h.hostmasks
  channels := by
    intro c' hc'
    obtain ⟨hold, hname'⟩ := h.channels c' hc'
    refine ⟨hold, Eq.trans ?_ hname'⟩
    rw [chanName, chanName, NetworkState.setChan_chanHeap, Heap.set_apply]
    split
    · subst_vars
      rw [hch, Option.map_some, Option.map_some, hname]
    · rfl
  kept := h.kept
  queries := h.queries
  listed := h.listed

/-! ### Members leave -/

/-- A member that the old state has leaves a channel. -/
theorem Copy.removeMemb (h : Copy nick hm old O) {m : Ref} {cn : ChannelNick} {ch : ChannelState}
    {gn : NetworkNick} (l : Link O m cn ch gn)
    (hold : ∀ n, old.nickHeap cn.globalNick = some n → n.channelNicks ≠ []) :
    Copy nick hm old (removeMemb O m cn ch gn) := by
  have e : Trims O (Ctrlproxy.removeMemb O m cn ch gn) := removeMemb_trims h.graph l
  have hgraph := e.graph h.graph
  -- what stays when it is on no channel was there before the diff
  have stays : ∀ g n, g ∈ old.nicks → old.nickHeap g = some n → n.query = true →
      ¬ (g = cn.globalNick ∧ gn.channelNicks.erase m = [] ∧ gn.query = false) := by
    rintro g n hmem hn hq ⟨rfl, -, hq'⟩
    obtain ⟨n', hn', hq''⟩ := h.queries _ hmem n hn hq
    obtain rfl := Option.some.inj (hn'.symm.trans l.nick)
    rw [hq''] at hq'
    cases hq'
  have kept : ∀ g, Kept old g → g ∈ (Ctrlproxy.removeMemb O m cn ch gn).nicks ∧
      keyOf (Ctrlproxy.removeMemb O m cn ch gn) g = keyOf old g := by
    intro g hk
    obtain ⟨hmem, hkey⟩ := h.kept g hk
    obtain ⟨hmem', n, hn, hwhy⟩ := hk
    have hin : g ∈ (Ctrlproxy.removeMemb O m cn ch gn).nicks := by
      refine (removeMemb_nicks h.graph m cn ch gn g).mpr ⟨hmem, ?_⟩
      rcases hwhy with hq | hnil
      · exact stays g n hmem' hn hq
      · rintro ⟨rfl, -⟩
        exact hold n hn hnil
    exact ⟨hin, (keyOf_congr (e.names h.graph (.inr hin)).2).trans hkey⟩
  refine ⟨⟨hgraph, e.quiets.edits.info_eq.trans h.info, e.quiets.unique h.graph h.unique,
    (e.quiets.identity h.graph).trans h.identity, e.quiets.edits.keeps Edit.hostmaskNicks h.hostmasks,
    ?_, kept, ?_⟩, ?_⟩
  · intro c hc
    rw [removeMemb_channels] at hc
    obtain ⟨hmem, hname⟩ := h.channels c hc
    refine ⟨hmem, Eq.trans ?_ hname⟩
    by_cases hx : c = cn.channel
    · rw [hx, chanName, chanName, removeMemb_chan, l.chan]
      rfl
    · rw [chanName, chanName, removeMemb_chan_other hx]
  · intro g hmem n hn hq
    obtain ⟨n', hn', hq'⟩ := h.queries g hmem n hn hq
    by_cases hg : g = cn.globalNick
    · subst hg
      obtain rfl := Option.some.inj (hn'.symm.trans l.nick)
      exact ⟨_, removeMemb_nick_same fun hd => stays _ n hmem hn hq ⟨rfl, hd⟩, hq'⟩
    · exact ⟨n', (removeMemb_nick hg).trans hn', hq'⟩
  · rintro g ⟨hmem, n, hn, hwhy⟩
    obtain ⟨hmem, hstay⟩ := (removeMemb_nicks h.graph m cn ch gn g).mp hmem
    refine h.listed g ⟨hmem, ?_⟩
    by_cases hg : g = cn.globalNick
    · subst hg
      have hstay' : ¬ (gn.channelNicks.erase m = [] ∧ gn.query = false) := fun hd => hstay ⟨rfl, hd⟩
      obtain rfl := Option.some.inj ((removeMemb_nick_same hstay').symm.trans hn)
      refine ⟨gn, l.nick, .inl ?_⟩
      rcases hwhy with hq | hnil
      · exact hq
      · exact Bool.eq_true_of_not_eq_false fun hq => hstay' ⟨hnil, hq⟩
    · exact ⟨n, (removeMemb_nick hg).symm.trans hn, hwhy⟩

/-! ### A nick enters -/

/-- A nick that nobody is called like is added. -/
theorem Copied.addNick (h : Copied nick hm old O) {x : Str}
    (hx : ∀ g, Known O g → keyOf O g ≠ some (Casemapping.unknown.fold x)) :
    Copied nick hm old (addNick O (newNetworkNick x)) where
  graph := h.graph.addNick rfl
  info := h.info
  unique := by
    refine h.unique.addNick h.graph fun g a hg ha e => hx g hg ?_
    rw [keyOf_eq ha, e]
  identity := (addNick_identity h.graph _).trans h.identity
  hostmasks := Edit.hostmaskNicks (.addNick x) h.hostmasks
  channels := h.channels
  kept := by
    intro g hk
    obtain ⟨hmem, hkey⟩ := h.kept g hk
    have hold : nameOf (Ctrlproxy.addNick O (newNetworkNick x)) g = nameOf O g :=
      nameOf_congr (Heap.set_other (h.graph.known_lt (.inr hmem)).ne)
    exact ⟨List.mem_append_left _ hmem, (keyOf_congr hold).trans hkey⟩
  queries := by
    intro g hmem n hn hq
    obtain ⟨n', hn', hq'⟩ := h.queries g hmem n hn hq
    refine ⟨n', (Heap.set_other ?_).trans hn', hq'⟩
    rintro rfl
    rw [(h.graph.fresh _ le_rfl).1] at hn'
    cases hn'

/-- A nick becomes a member of a channel. -/
theorem Copied.addMemb (h : Copied nick hm old O) (hc : c ∈ O.channels) (hg : Known O g)
    {ch : ChannelState} {gn : NetworkNick} (hch : O.chanHeap c = some ch)
    (hgn : O.nickHeap g = some gn) (habs : ¬ OnChan O c g) (modes : Modes) :
    Copied nick hm old (addMemb O c g ch gn modes) := by
  have hname : ∀ x, nameOf (Ctrlproxy.addMemb O c g ch gn modes) x = nameOf O x :=
    fun x => nameOf_keep rfl hgn (by rfl) x
  have hid : identityOf (Ctrlproxy.addMemb O c g ch gn modes) = identityOf O :=
    identityOf_keep rfl hgn rfl rfl
  refine ⟨h.graph.addMemb hc hg hch hgn, h.info,
    h.unique.addMemb h.graph hc hch hgn fun x hx cn hcn e => habs ⟨ch, x, cn, hch, hx, hcn, e⟩,
    hid.trans h.identity, ?_, ?_, ?_, ?_⟩
  · exact h.hostmasks.set rfl fun hne => (h.hostmasks _ _ hne hgn).of_eq rfl rfl
  · intro c' hc'
    obtain ⟨hold, hcn⟩ := h.channels c' hc'
    refine ⟨hold, Eq.trans ?_ hcn⟩
    rw [chanName, chanName]
    show (Heap.set O.chanHeap c _ c').map _ = _
    rw [Heap.set_apply]
    split
    · subst_vars
      rw [hch]
      rfl
    · rfl
  · intro g' hk
    obtain ⟨hmem, hkey⟩ := h.kept g' hk
    exact ⟨hmem, (keyOf_congr (hname g')).trans hkey⟩
  · intro g' hmem n hn hq
    obtain ⟨n', hn', hq'⟩ := h.queries g' hmem n hn hq
    by_cases hg' : g' = g
    · subst hg'
      obtain rfl := Option.some.inj (hn'.symm.trans hgn)
      exact ⟨_, Heap.set_same _ _ _, hq'⟩
    · exact ⟨n', (Heap.set_other hg').trans hn', hq'⟩

end

/-! ### The other channels -/

/-- The name is one of the new state. -/
def SpelledIn (new : NetworkState) (a : Option Str) : Prop := ∃ g, Known new g ∧ nameOf new g = a

/-- From `O` to `O'` every channel but that at `c` keeps what it is and who is on it.  Its members
may be renamed to names of the new state, but only up to case. -/
structure Aside (new : NetworkState) (c : Ref) (O O' : NetworkState) : Prop where
  listed : ∀ x, x ≠ c → (x ∈ O'.channels ↔ x ∈ O.channels)
  chan : ∀ x, x ≠ c → O'.chanHeap x = O.chanHeap x
  memb : ∀ m cn, O.membHeap m = some cn → cn.channel ≠ c → O'.membHeap m = some cn
  name : ∀ x ∈ O.channels, x ≠ c → ∀ g, OnChan O x g →
    keyOf O' g = keyOf O g ∧ (nameOf O' g = nameOf O g ∨ SpelledIn new (nameOf O' g))

section
variable {new O O' O'' : NetworkState} {c x g : Ref}

theorem Aside.refl : Aside new c O O :=
  ⟨fun _ _ => Iff.rfl, fun _ _ => rfl, fun _ _ h _ => h, fun _ _ _ _ _ => ⟨rfl, .inl rfl⟩⟩

theorem Aside.onChan (h : Aside new c O O') (hg : Graph O) (hx : x ∈ O.channels) (hne : x ≠ c) :
    OnChan O' x g ↔ OnChan O x g := by
  have same : ∀ ch, O.chanHeap x = some ch → ∀ m ∈ ch.nicks, O'.membHeap m = O.membHeap m := by
    intro ch hch m hm
    obtain ⟨cn, gn, hl, e⟩ := hg.link_of_chan hx hch hm
    rw [hl.memb]
    exact h.memb m cn hl.memb (e ▸ hne)
  constructor
  · rintro ⟨ch, m, cn, hch, hm, hcn, e⟩
    rw [h.chan x hne] at hch
    exact ⟨ch, m, cn, hch, hm, (same ch hch m hm).symm.trans hcn, e⟩
  · rintro ⟨ch, m, cn, hch, hm, hcn, e⟩
    exact ⟨ch, m, cn, (h.chan x hne).trans hch, hm, (same ch hch m hm).trans hcn, e⟩

theorem Aside.trans (h : Aside new c O O') (h' : Aside new c O' O'') (hg : Graph O) :
    Aside new c O O'' where
  listed := fun x hx => (h'.listed x hx).trans (h.listed x hx)
  chan := fun x hx => (h'.chan x hx).trans (h.chan x hx)
  memb := fun m cn hm hne => h'.memb m cn (h.memb m cn hm hne) hne
  name := by
    intro x hx hne g hon
    obtain ⟨hkey, hname⟩ := h.name x hx hne g hon
    obtain ⟨hkey', hname'⟩ :=
      h'.name x ((h.listed x hne).mpr hx) hne g ((h.onChan hg hx hne).mpr hon)
    refine ⟨hkey'.trans hkey, ?_⟩
    rcases hname' with e | hs
    · rw [e]
      exact hname
    · exact .inr hs

/-- A nick is renamed. -/
theorem Aside.setNick {n' : NetworkNick} {a y : Str} (ha : nameOf O g = some a)
    (hy : n'.nick = some y) (e : Casemapping.unknown.fold a = Casemapping.unknown.fold y)
    (hs : SpelledIn new (some y)) : Aside new c O (O.setNick g n') where
  listed := fun _ _ => Iff.rfl
  chan := fun _ _ => rfl
  memb := fun _ _ h _ => h
  name := by
    intro x _ _ g' _
    by_cases hg' : g' = g
    · subst hg'
      have hy' : nameOf (O.setNick g' n') g' = some y := nameOf_set_same.trans hy
      exact ⟨by rw [keyOf_eq ha, keyOf_eq hy', e], .inr (hy'.symm ▸ hs)⟩
    · have hsame : nameOf (O.setNick g n') g' = nameOf O g' := nameOf_set_other hg'
      exact ⟨keyOf_congr hsame, .inl hsame⟩

theorem Aside.setChan {ch : ChannelState} : Aside new c O (O.setChan c ch) :=
  ⟨fun _ _ => Iff.rfl, fun _ hx => Heap.set_other hx, fun _ _ h _ => h,
    fun _ _ _ _ _ => ⟨rfl, .inl rfl⟩⟩

/-- A member leaves. -/
theorem Aside.removeMemb (hg : Graph O) {m : Ref} {cn : ChannelNick} {ch : ChannelState}
    {gn : NetworkNick} (l : Link O m cn ch gn) :
    Aside new cn.channel O (removeMemb O m cn ch gn) where
  listed := fun x _ => by rw [removeMemb_channels]
  chan := fun x hx => removeMemb_chan_other hx
  memb := by
    intro m' cn' hm' hne
    rw [removeMemb_memb, Heap.del_other ?_]
    · exact hm'
    · rintro rfl
      obtain rfl := Option.some.inj (l.memb.symm.trans hm')
      exact hne rfl
  name := by
    intro x hx hne g hon
    have hsame : nameOf (Ctrlproxy.removeMemb O m cn ch gn) g = nameOf O g := by
      refine ((removeMemb_trims hg l).names hg ?_).2
      refine (hon.known hg hx).imp_right fun hmem => (removeMemb_nicks hg m cn ch gn g).mpr ⟨hmem, ?_⟩
      -- the nick is on another channel
      rintro ⟨rfl, hnil, -⟩
      obtain ⟨m', hm', cn', hcn', e⟩ := hon.memberships hg hx l.nick
      have hmm : m' ≠ m := by
        rintro rfl
        obtain rfl := Option.some.inj (l.memb.symm.trans hcn')
        exact hne e.symm
      have := (List.mem_erase_of_ne hmm).mpr hm'
      rw [hnil] at this
      cases this
    exact ⟨keyOf_congr hsame, .inl hsame⟩

theorem Aside.addNick (hg : Graph O) (n : NetworkNick) : Aside new c O (addNick O n) where
  listed := fun _ _ => Iff.rfl
  chan := fun _ _ => rfl
  memb := fun _ _ h _ => h
  name := by
    intro x hx _ g hon
    have hsame : nameOf (Ctrlproxy.addNick O n) g = nameOf O g :=
      nameOf_congr (Heap.set_other (hg.known_lt (hon.known hg hx)).ne)
    exact ⟨keyOf_congr hsame, .inl hsame⟩

theorem Aside.addMemb (hg : Graph O) {ch : ChannelState} {gn : NetworkNick}
    (hgn : O.nickHeap g = some gn) (modes : Modes) : Aside new c O (addMemb O c g ch gn modes) where
  listed := fun _ _ => Iff.rfl
  chan := fun _ hx => Heap.set_other hx
  memb := fun _ _ h _ => (Heap.set_other (hg.memb_lt h).ne).trans h
  name := by
    intro x _ _ g' _
    have hsame : nameOf (Ctrlproxy.addMemb O c g ch gn modes) g' = nameOf O g' :=
      nameOf_keep rfl hgn (by rfl) g'
    exact ⟨keyOf_congr hsame, .inl hsame⟩

end

end Ctrlproxy
