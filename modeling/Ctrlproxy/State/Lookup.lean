import Ctrlproxy.State.Nicks

/-!
# State — searches by name

Where names are unique under the case mapping, the searches for a nick and for a member answer, and
what they answer is the one nick that has the name up to case.  No search looks at anything but
names (`findNetworkNick_eq`, `findMember_eq`, `findChannel_eq`).
-/

namespace Ctrlproxy
open Outcome

/-! ### Names as they are compared -/

/-- The name of a nick, folded. -/
def nickKey (m : Casemapping) (s : NetworkState) (g : Ref) : Option Str :=
  (nameOf s g).map m.fold

/-- The name of the nick of a membership, folded. -/
def membKey (m : Casemapping) (s : NetworkState) (x : Ref) : Option Str :=
  (s.membHeap x).bind fun cn => nickKey m s cn.globalNick

/-- The name of a channel, folded. -/
def channelKey (m : Casemapping) (s : NetworkState) (c : Ref) : Option Str :=
  (s.chanHeap c).map fun ch => m.fold ch.name

section
variable {m : Casemapping} {s : NetworkState} {g c x : Ref} {a name : Str}

theorem nickKey_eq (ha : nameOf s g = some a) : nickKey m s g = some (m.fold a) := by
  rw [nickKey, ha, Option.map_some]

theorem membKey_eq {cn : ChannelNick} (hcn : s.membHeap x = some cn) :
    membKey m s x = nickKey m s cn.globalNick := by
  rw [membKey, hcn, Option.bind_some]

theorem channelKey_eq {ch : ChannelState} (hch : s.chanHeap c = some ch) :
    channelKey m s c = some (m.fold ch.name) := by
  rw [channelKey, hch, Option.map_some]

/-- Two names are the same for `irccmp` when they are the same folded. -/
theorem Named.sameNick_iff (h : Named m s) {a b : Str} : SameNick s a b ↔ m.fold a = m.fold b := by
  rw [Ctrlproxy.sameNick_iff, h.mapping]

theorem nickKey_congr {s' : NetworkState} (h : s'.nickHeap g = s.nickHeap g) :
    nickKey m s' g = nickKey m s g := by
  rw [nickKey, nickKey, nameOf_congr h]

/-- The test of the searches. -/
theorem ircEq_name (hm : casemapOf (some s.info) = m) (a name : Str) :
    ircEq (some s.info) (some a) (some name) = .ok (decide (m.fold a = m.fold name)) := by
  rw [ircEq_fold, hm]

/-! ### Nicks -/

theorem Unique.live (h : Unique m s) (hk : Known s g) :
    ∃ n a, s.nickHeap g = some n ∧ n.nick = some a ∧ nickKey m s g = some (m.fold a) := by
  obtain ⟨a, ha⟩ := h.named g hk
  obtain ⟨n, hn, hna⟩ := Option.bind_eq_some_iff.mp ha
  exact ⟨n, a, hn, hna, nickKey_eq ha⟩

/-- No two nicks have the same folded name. -/
theorem Unique.nickKey_inj (h : Unique m s) {g' : Ref} (hg : Known s g) (hg' : Known s g')
    (e : nickKey m s g = nickKey m s g') : g = g' := by
  obtain ⟨a, ha⟩ := h.named g hg
  obtain ⟨a', ha'⟩ := h.named g' hg'
  rw [nickKey_eq ha, nickKey_eq ha', Option.some_inj] at e
  exact h.distinct g g' a a' hg hg' ha ha' e

/-- The test at a known nick. -/
theorem nick_test (hm : casemapOf (some s.info) = m) (h : Unique m s) (hk : Known s g)
    (name : Str) : (do
      let n ← s.nick g
      ircEq (some s.info) n.nick (some name)) =
    .ok (decide (nickKey m s g = some (m.fold name))) := by
  obtain ⟨n, a, hn, hna, hkey⟩ := h.live hk
  rw [NetworkState.nick_eq hn, ok_bind, hna, ircEq_name hm, hkey]
  exact congrArg Except.ok (decide_eq_decide.mpr Option.some_inj.symm)

/-- `find_network_nick` is a search by folded name. -/
theorem findNetworkNick_eq (hm : casemapOf (some s.info) = m) (h : Unique m s) (name : Str) :
    findNetworkNick s name =
      .ok ((meRef :: s.nicks).find? fun g => nickKey m s g = some (m.fold name)) :=
  findFirst_eq_find? fun _ hr => nick_test hm h (List.mem_cons.mp hr) name

/-- The nick that has the name is found. -/
theorem findNetworkNick_known (hm : casemapOf (some s.info) = m) (h : Unique m s)
    (hk : Known s g) (hkey : nickKey m s g = some (m.fold name)) :
    findNetworkNick s name = .ok (some g) := by
  refine findFirst_unique (fun r hr => nick_test hm h (List.mem_cons.mp hr) name)
    (List.mem_cons.mpr hk) (decide_eq_true hkey) fun r hr e => ?_
  exact h.nickKey_inj (List.mem_cons.mp hr) hk ((of_decide_eq_true e).trans hkey.symm)

/-- Nothing is found by a name that no nick has. -/
theorem findNetworkNick_unknown (hm : casemapOf (some s.info) = m) (h : Unique m s)
    (hno : ∀ g, Known s g → nickKey m s g ≠ some (m.fold name)) :
    findNetworkNick s name = .ok none := by
  rw [findNetworkNick_eq hm h]
  refine congrArg Except.ok (List.find?_eq_none.mpr fun r hr e => ?_)
  exact hno r (List.mem_cons.mp hr) (of_decide_eq_true e)

/-- What the search found is known and has the name. -/
theorem findNetworkNick_found (hm : casemapOf (some s.info) = m)
    (hf : findNetworkNick s name = .ok (some g)) :
    Known s g ∧ nickKey m s g = some (m.fold name) := by
  obtain ⟨hk, a, ha, e⟩ := findNetworkNick_some hm hf
  exact ⟨hk, (nickKey_eq ha).trans (congrArg some e)⟩

/-! ### Members -/

/-- The test at a member of a channel. -/
theorem member_test (hg : Graph s) (hm : casemapOf (some s.info) = m) (h : Unique m s)
    {ch : ChannelState} (hc : c ∈ s.channels) (hch : s.chanHeap c = some ch) (hx : x ∈ ch.nicks)
    (name : Str) : (do
      let cn ← s.memb x
      let n ← s.nick cn.globalNick
      ircEq (some s.info) n.nick (some name)) =
    .ok (decide (membKey m s x = some (m.fold name))) := by
  obtain ⟨cn, gn, hl, -⟩ := hg.link_of_chan hc hch hx
  rw [NetworkState.memb_eq hl.memb, ok_bind, nick_test hm h hl.known, membKey_eq hl.memb]

/-- `find_channel_nick` is a search by folded name. -/
theorem findMember_eq (hg : Graph s) (hm : casemapOf (some s.info) = m) (h : Unique m s)
    {ch : ChannelState} (hc : c ∈ s.channels) (hch : s.chanHeap c = some ch) (name : Str) :
    findMember s (some s.info) name ch.nicks =
      .ok (ch.nicks.find? fun x => membKey m s x = some (m.fold name)) :=
  findFirst_eq_find? fun _ hx => member_test hg hm h hc hch hx name

/-- No two members of a channel have the same folded name. -/
theorem Unique.membKey_inj (hg : Graph s) (h : Unique m s) {ch : ChannelState} {y : Ref}
    (hc : c ∈ s.channels) (hch : s.chanHeap c = some ch) (hx : x ∈ ch.nicks) (hy : y ∈ ch.nicks)
    (e : membKey m s x = membKey m s y) : x = y := by
  obtain ⟨cn, gn, hl, -⟩ := hg.link_of_chan hc hch hx
  obtain ⟨cn', gn', hl', -⟩ := hg.link_of_chan hc hch hy
  rw [membKey_eq hl.memb, membKey_eq hl'.memb] at e
  exact h.members c hc ch hch x hx y hy cn cn' hl.memb hl'.memb (h.nickKey_inj hl.known hl'.known e)

/-- The member that has the name is found. -/
theorem findMember_listed (hg : Graph s) (hm : casemapOf (some s.info) = m) (h : Unique m s)
    {ch : ChannelState} (hc : c ∈ s.channels) (hch : s.chanHeap c = some ch) (hx : x ∈ ch.nicks)
    (hkey : membKey m s x = some (m.fold name)) :
    findMember s (some s.info) name ch.nicks = .ok (some x) :=
  findFirst_unique (fun _ hr => member_test hg hm h hc hch hr name) hx (decide_eq_true hkey)
    fun _ hr e => h.membKey_inj hg hc hch hr hx ((of_decide_eq_true e).trans hkey.symm)

/-- No member is found by a name that none has. -/
theorem findMember_absent (hg : Graph s) (hm : casemapOf (some s.info) = m) (h : Unique m s)
    {ch : ChannelState} (hc : c ∈ s.channels) (hch : s.chanHeap c = some ch)
    (hno : ∀ x ∈ ch.nicks, membKey m s x ≠ some (m.fold name)) :
    findMember s (some s.info) name ch.nicks = .ok none := by
  rw [findMember_eq hg hm h hc hch]
  exact congrArg Except.ok (List.find?_eq_none.mpr fun x hx e => hno x hx (of_decide_eq_true e))

/-- A name without a prefix character is searched as it is. -/
theorem findChannelNick_plain (hg : Graph s) {ch : ChannelState} (hc : c ∈ s.channels)
    (hch : s.chanHeap c = some ch) (hp : isPrefix name.head? (some s.info) = false) :
    findChannelNick s c name = findMember s (some s.info) name ch.nicks := by
  rw [findChannelNick_eq hg hc hch, stripPrefix_of_not hp]

/-! ### Channels -/

/-- The test at a channel. -/
theorem channel_test (hg : Graph s) (hm : casemapOf (some s.info) = m) (hc : c ∈ s.channels)
    (name : Str) : (do
      let ch ← s.chan c
      ircEq (some s.info) (some ch.name) (some name)) =
    .ok (decide (channelKey m s c = some (m.fold name))) := by
  obtain ⟨ch, hch, -⟩ := hg.chan_live c hc
  rw [NetworkState.chan_eq hch, ok_bind, ircEq_name hm, channelKey_eq hch]
  exact congrArg Except.ok (decide_eq_decide.mpr Option.some_inj.symm)

/-- `find_channel` is a search by folded name. -/
theorem findChannel_eq (hg : Graph s) (hm : casemapOf (some s.info) = m) (name : Str) :
    findChannel s name =
      .ok (s.channels.find? fun c => channelKey m s c = some (m.fold name)) :=
  findFirst_eq_find? fun _ hc => channel_test hg hm hc name

end

/-! ### A channel with two members -/

/-- A state with unique names keeps them when a nick joins. -/
theorem join_named {m : Casemapping} {s s' : NetworkState} (h : Named m s) {i : Input} {o : Str}
    (hk : commandOf i.2 = some .join) (ho : i.2.origin = some o) (hbang : chr '!' ∈ o)
    (hp : isPrefix (o.takeWhile (· ≠ chr '!')).head? (some s.info) = false)
    (hs : stateStep s i = .ok s') : Named m s' := by
  rw [stateStep_handler hk] at hs
  refine (handleJoin_named h fun o' ho' => ?_).of_ok hs
  cases ho.symm.trans ho'
  exact ⟨hbang, hp⟩

/-- Announcements that keep the case mapping keep the names unique. -/
theorem Named.announce {m : Casemapping} {s : NetworkState} (h : Named m s) {i : NetworkInfo}
    (hi : i.casemapping = s.info.casemapping) : Named m { s with info := i } where
  graph := h.graph.announce i
  mapping := hi.trans h.mapping
  unique := ⟨h.unique.named, h.unique.distinct, h.unique.members⟩

/-- The user joins a channel. -/
def meJoins : Input := inputOf ":me!user@host JOIN #c"

/-- Another nick joins it. -/
def joeJoins : Input := inputOf ":joe!u@h JOIN #c"

/-- The user and then another nick join a channel. -/
def twoJoined : Except Fault NetworkState :=
  [meJoins, joeJoins].foldlM stateStep (networkStateInit (str "me") (str "user") (str "host"))

theorem twoJoined_named {s : NetworkState} (hs : twoJoined = .ok s) : Named .unknown s := by
  rw [twoJoined, List.foldlM_cons] at hs
  obtain ⟨s₁, hs₁, hs⟩ := bind_eq_ok hs
  rw [List.foldlM_cons] at hs
  obtain ⟨s₂, hs₂, hs⟩ := bind_eq_ok hs
  cases hs
  have me : meJoins.2 = ⟨some (str "me!user@host"), [str "JOIN", str "#c"], .withoutColon⟩ := by
    simp [meJoins, inputOf, ircParseLine, parseArgs, str, chr]
  have joe : joeJoins.2 = ⟨some (str "joe!u@h"), [str "JOIN", str "#c"], .withoutColon⟩ := by
    simp [joeJoins, inputOf, ircParseLine, parseArgs, str, chr]
  have join {o : Str} : commandOf ⟨some o, [str "JOIN", str "#c"], .withoutColon⟩ = some .join :=
    commandOf_known (w := str "JOIN") (n := 1) rfl (by decide) le_rfl
  have h₁ : Named .unknown s₁ :=
    join_named (o := str "me!user@host") (networkStateInit_named _ _ _) (me ▸ join) (me ▸ rfl)
      (by decide) (by decide) hs₁
  have hinfo : s₁.info = networkInfoInit :=
    stateStep_info (networkStateInit_graph _ _ _) (by rw [me, join]; nofun)
      (by rw [me, join]; nofun) hs₁
  exact join_named (o := str "joe!u@h") h₁ (joe ▸ join) (joe ▸ rfl) (by decide)
    (hinfo ▸ by decide) hs₂

end Ctrlproxy
