import Ctrlproxy.Lib.Lists
import Ctrlproxy.Client.Host
import Ctrlproxy.Client.Names

/-!
# Client — an observer of the lines

Someone who starts with the user's nick, user name and host name and reads the lines that spell out
a state `S`.  While they come in, the observer's state `O` shows the channels spelled out so far
(`View`), and one more that is being spelled out (`Opened`): JOIN opens it, with the user as its only
member, 332 and 333 add the topic, and the first 353 replaces the members by the names it lists.
-/

namespace Ctrlproxy
open Outcome

/-! ### What was told -/

/-- The membership at `m'` is what is told of that at `m`: a nick of this name, with the mode of its
first prefix. -/
def MemberTold (S O : NetworkState) (m m' : Ref) : Prop :=
  ∃ cn cn' a p, S.membHeap m = some cn ∧ O.membHeap m' = some cn' ∧
    nameOf S cn.globalNick = some a ∧ nameOf O cn'.globalNick = some a ∧
    getPrefixFromModes S.info cn.modes = .ok p ∧ prefixModes O.info p = .ok cn'.modes

/-- The channel at `c'` is what is told of that at `c`: it has its name, its topic, the setter of the
topic, its character, and its members in order. -/
def ChannelTold (setter : ChannelState → Option Str) (S O : NetworkState) (c c' : Ref) : Prop :=
  ∃ ch ch', S.chanHeap c = some ch ∧ O.chanHeap c' = some ch' ∧ ch'.name = ch.name ∧
    ch'.topic = ch.topic ∧ ch'.topicSetBy = setter ch ∧ ch'.mode = ch.mode ∧
    List.Forall₂ (MemberTold S O) ch.nicks ch'.nicks

/-- The setter of a topic that is told: none without a time. -/
def toldSetter (ch : ChannelState) : Option Str :=
  if ch.topicSetTime = long0 then none else ch.topicSetBy

/-! ### States that can be told -/

/-- A nick as it is spelled: one argument wherever it stands, without a prefix character. -/
structure NickSpelled (a : Str) : Prop where
  bare : Bare a
  nonempty : a ≠ []
  bang : chr '!' ∉ a
  prefixless : isPrefix a.head? (some networkInfoInit) = false

/-- A channel as it is spelled. -/
structure ChannelSpelled (ch : ChannelState) : Prop where
  name : Bare ch.name
  nonempty : ch.name ≠ []
  comma : chr ',' ∉ ch.name
  topic : ∀ t ∈ ch.topic, NoEol t
  setter : ∀ w ∈ ch.topicSetBy, Bare w
  mode : Bare ch.mode.toList

/-- A state whose nicks and channels are spelled as they should be and are told apart by their
names, and whose channels have members. -/
structure Tellable (S : NetworkState) : Prop where
  named : Named .unknown S
  info : S.info = networkInfoInit
  nicks : ∀ g a, Known S g → nameOf S g = some a → NickSpelled a
  channels : ∀ c ∈ S.channels, ∀ ch, S.chanHeap c = some ch → ChannelSpelled ch ∧ ch.nicks ≠ []
  distinct : ∀ c ∈ S.channels, ∀ c' ∈ S.channels, ∀ ch ch', S.chanHeap c = some ch →
    S.chanHeap c' = some ch' →
      Casemapping.unknown.fold ch.name = Casemapping.unknown.fold ch'.name → c = c'

section
variable {S : NetworkState}

/-- Names that are the same up to case are the same. -/
theorem Tellable.sameName (h : Tellable S) {g g' : Ref} {a a' : Str} (hg : Known S g)
    (hg' : Known S g') (ha : nameOf S g = some a) (ha' : nameOf S g' = some a')
    (e : Casemapping.unknown.fold a = Casemapping.unknown.fold a') : a = a' := by
  obtain rfl := h.named.unique.distinct g g' a a' hg hg' ha ha' e
  rw [ha] at ha'
  exact Option.some.inj ha'

/-- A member has a name that is spelled. -/
theorem Tellable.member (h : Tellable S) {c m : Ref} {ch : ChannelState} (hc : c ∈ S.channels)
    (hch : S.chanHeap c = some ch) (hm : m ∈ ch.nicks) :
    ∃ cn a, S.membHeap m = some cn ∧ Known S cn.globalNick ∧ nameOf S cn.globalNick = some a ∧
      NickSpelled a := by
  obtain ⟨cn, hcn, -, hk, -⟩ := h.named.graph.to_nick c hc ch hch m hm
  obtain ⟨a, ha⟩ := h.named.unique.named _ hk
  exact ⟨cn, a, hcn, hk, ha, h.nicks _ a hk ha⟩

end

/-! ### Growing -/

/-- From `O` to `O'` nothing changes but the channel at `c`, its members, what memberships nicks
have, and that there are new nicks. -/
structure Grows (c : Ref) (O O' : NetworkState) : Prop where
  nick : ∀ g n, O.nickHeap g = some n → ∃ n', O'.nickHeap g = some n' ∧
    n' = { n with channelNicks := n'.channelNicks }
  memb : ∀ m cn, O.membHeap m = some cn → cn.channel ≠ c → O'.membHeap m = some cn
  chan : ∀ x, x ≠ c → O'.chanHeap x = O.chanHeap x
  info : O'.info = O.info

section
variable {S O O' : NetworkState} {c : Ref}

theorem Grows.name (h : Grows c O O') {g : Ref} {a : Str} (ha : nameOf O g = some a) :
    nameOf O' g = some a := by
  obtain ⟨n, hn, hname⟩ := Option.bind_eq_some_iff.mp ha
  obtain ⟨n', hn', e⟩ := h.nick g n hn
  rw [nameOf_eq hn', e]
  exact hname

theorem MemberTold.keep {m m' : Ref} (h : MemberTold S O m m') (hg : Grows c O O')
    (hm : ∀ cn, O.membHeap m' = some cn → O'.membHeap m' = some cn) : MemberTold S O' m m' := by
  obtain ⟨cn, cn', a, p, hcn, hcn', ha, ha', hp, hmodes⟩ := h
  exact ⟨cn, cn', a, p, hcn, hm cn' hcn', ha, hg.name ha', hp, hg.info ▸ hmodes⟩

theorem ChannelTold.grows {setter : ChannelState → Option Str} {x x' : Ref}
    (h : ChannelTold setter S O x x') (hgraph : Graph O) (hx : x' ∈ O.channels)
    (hg : Grows c O O') (hne : x' ≠ c) : ChannelTold setter S O' x x' := by
  obtain ⟨ch, ch', hch, hch', e₁, e₂, e₃, e₄, hm⟩ := h
  refine ⟨ch, ch', hch, (hg.chan x' hne).trans hch', e₁, e₂, e₃, e₄,
    forall₂_imp_mem hm fun m _ m' hm' ht => ht.keep hg fun cn hcn => hg.memb m' cn hcn ?_⟩
  obtain ⟨cn', hcn', e, -⟩ := hgraph.to_nick x' hx ch' hch' m' hm'
  rw [hcn] at hcn'
  cases hcn'
  exact e ▸ hne

/-! ### The view of an observer -/

/-- The observer's channels `acc` are what was told of the channels `done` of `S`.  The user has the
same names and no modes, and every nick is one of `S`. -/
structure View (nick hm : Str) (S O : NetworkState) (done acc : List Ref) : Prop where
  graph : Graph O
  info : O.info = networkInfoInit
  me : ∃ me, O.nickHeap meRef = some me ∧ me.nick = some nick ∧ me.hostmask = some hm ∧
    me.modes = modesClear
  names : ∀ g', Known O g' → ∃ g a, Known S g ∧ nameOf S g = some a ∧ nameOf O g' = some a
  listed : acc ⊆ O.channels
  told : List.Forall₂ (ChannelTold toldSetter S O) done acc

variable {nick hm : Str} {done acc : List Ref}

/-- What grows at a channel that is not told yet keeps the view. -/
theorem View.grows (h : View nick hm S O done acc) (hg : Grows c O O') (hgraph : Graph O')
    (hc : c ∉ acc) (hcs : O.channels ⊆ O'.channels)
    (hnames : ∀ g', Known O' g' → Known O g' ∨
      ∃ g a, Known S g ∧ nameOf S g = some a ∧ nameOf O' g' = some a) :
    View nick hm S O' done acc where
  graph := hgraph
  info := hg.info.trans h.info
  me := by
    obtain ⟨me, hme, h₁, h₂, h₃⟩ := h.me
    obtain ⟨me', hme', e⟩ := hg.nick meRef me hme
    refine ⟨me', hme', ?_⟩
    rw [e]
    exact ⟨h₁, h₂, h₃⟩
  names := by
    intro g' hg'
    rcases hnames g' hg' with hk | hk
    · obtain ⟨g, a, hk, ha, ha'⟩ := h.names g' hk
      exact ⟨g, a, hk, ha, hg.name ha'⟩
    · exact hk
  listed := fun _ hx => hcs (h.listed hx)
  told := forall₂_imp_mem h.told fun _ _ x' hx' ht =>
    ht.grows h.graph (h.listed hx') hg fun e => hc (e ▸ hx')

end

/-! ### Searches -/

section
variable {O : NetworkState}

theorem ircEq_init (a b : Str) : ircEq (some networkInfoInit) (some a) (some b) =
    .ok (decide (Casemapping.unknown.fold a = Casemapping.unknown.fold b)) :=
  ircEq_fold (some networkInfoInit) a b

/-- The channel at an address has this name, up to case. -/
def hasName (O : NetworkState) (name : Str) (c : Ref) : Bool :=
  (O.chanHeap c).any fun ch =>
    decide (Casemapping.unknown.fold ch.name = Casemapping.unknown.fold name)

theorem hasName_eq {name : Str} {c : Ref} {ch : ChannelState} (hch : O.chanHeap c = some ch) :
    hasName O name c =
      decide (Casemapping.unknown.fold ch.name = Casemapping.unknown.fold name) := by
  rw [hasName, hch, Option.any_some]

/-- A channel is found by its name. -/
theorem findChannel_find? (h : Graph O) (hinfo : O.info = networkInfoInit) (name : Str) :
    findChannel O name = .ok (O.channels.find? (hasName O name)) := by
  rw [findChannel]
  refine findFirst_eq_find? fun c hc => ?_
  obtain ⟨ch, hch, -⟩ := h.chan_live c hc
  rw [NetworkState.chan_eq hch, ok_bind, hinfo, ircEq_init, hasName_eq hch]

/-- The last channel is found by its name when no other has it. -/
theorem findChannel_last (h : Graph O) (hinfo : O.info = networkInfoInit) {acc : List Ref} {c : Ref}
    (hcs : O.channels = acc ++ [c]) {ch : ChannelState} (hch : O.chanHeap c = some ch)
    (hno : ∀ x ∈ acc, hasName O ch.name x = false) :
    findChannel O ch.name = .ok (some c) := by
  have hacc : acc.find? (hasName O ch.name) = none :=
    List.find?_eq_none.mpr fun x hx => by simp [hno x hx]
  have hself : hasName O ch.name c = true := by
    rw [hasName_eq hch]
    exact decide_eq_true rfl
  rw [findChannel_find? h hinfo, hcs, List.find?_append, hacc, Option.none_or,
    List.find?_cons_of_pos hself]

/-- The user's own name finds the user. -/
theorem findNetworkNick_me {me : NetworkNick} {a : Str} (hinfo : O.info = networkInfoInit)
    (hme : O.nickHeap meRef = some me) (ha : me.nick = some a) :
    findNetworkNick O a = .ok (some meRef) := by
  rw [findNetworkNick, findFirst, NetworkState.nick_eq hme, ok_bind, hinfo, ha, ircEq_init]
  simp

end

/-! ### A member is added -/

/-- What adding a nick or a member of the name `a` leaves as it was, besides what `Grows` says. -/
structure Adds (a : Str) (c : Ref) (O O' : NetworkState) : Prop where
  grows : Grows c O O'
  graph : Graph O'
  channels : O'.channels = O.channels
  memb : ∀ m cn, O.membHeap m = some cn → O'.membHeap m = some cn
  names : ∀ g', Known O' g' → Known O g' ∨ nameOf O' g' = some a

section
variable {S O : NetworkState} {nick hm : Str} {done acc : List Ref} {a : Str} {g c : Ref}

/-- The nick of a name that is told is found or made. -/
theorem View.findAddNetworkNick (h : View nick hm S O done acc) (hS : Tellable S) (hg : Known S g)
    (ha : nameOf S g = some a) (c : Ref) : ∃ g' O', findAddNetworkNick O a = .ok (g', O') ∧
      Adds a c O O' ∧ O'.chanHeap = O.chanHeap ∧ Known O' g' ∧ nameOf O' g' = some a ∧
      (a = nick → g' = meRef) := by
  obtain ⟨me, hme, hnick, -⟩ := h.me
  have hmine : a = nick → findNetworkNick O a = .ok (some meRef) := by
    rintro rfl
    exact findNetworkNick_me h.info hme hnick
  have hmap : casemapOf (some O.info) = .unknown := by rw [h.info]; rfl
  have hfind : Total (findNetworkNick O a) (fun r => ∀ g' ∈ r, Known O g') := by
    refine (findFirst_ensures fun r hr => ?_).imp fun r hr g' hg' =>
      List.mem_cons.mp (hr g' hg').1
    obtain ⟨_, b, -, -, hb⟩ := h.names r (List.mem_cons.mp hr)
    obtain ⟨n, hn, hb⟩ := Option.bind_eq_some_iff.mp hb
    rw [NetworkState.nick_eq hn, ok_bind, hb]
    trivial
  obtain ⟨r, hr, hk⟩ := hfind.exists_ok
  rw [Ctrlproxy.findAddNetworkNick, hr, ok_bind]
  cases r with
  | some g' =>
      have hk' := hk g' rfl
      obtain ⟨-, b, hb, e⟩ := findNetworkNick_some hmap hr
      obtain ⟨g₀, b', hg₀, hb₀, hb'⟩ := h.names g' hk'
      rw [hb] at hb'
      cases hb'
      obtain rfl := hS.sameName hg₀ hg hb₀ ha e
      refine ⟨g', O, rfl, ⟨⟨fun _ n hn => ⟨n, hn, rfl⟩, fun _ _ hm _ => hm, fun _ _ => rfl, rfl⟩,
        h.graph, rfl, fun _ _ => id, fun _ => .inl⟩, rfl, hk', hb, fun e => ?_⟩
      have := hmine e
      rw [hr] at this
      exact Option.some.inj (Except.ok.inj this)
  | none =>
      have hp := (hS.nicks g a hg ha).prefixless
      rw [← h.info] at hp
      have hnew : nameOf (addNick O (newNetworkNick a)) O.next = some a := by
        rw [nameOf]
        exact congrArg (Option.bind · _) (Heap.set_same _ _ _)
      have hgrows : Grows c O (addNick O (newNetworkNick a)) := by
        refine ⟨fun g' n hn => ⟨n, ?_, rfl⟩, fun _ _ hm _ => hm, fun _ _ => rfl, rfl⟩
        refine (Heap.set_other ?_).trans hn
        rintro rfl
        rw [(h.graph.fresh _ le_rfl).1] at hn
        cases hn
      dsimp only
      rw [hp]
      refine ⟨O.next, addNick O (newNetworkNick a), rfl,
        ⟨hgrows, h.graph.addNick rfl, rfl, fun _ _ => id, ?_⟩, rfl, .inr ?_, hnew, fun e => ?_⟩
      · rintro g' (rfl | hg')
        · exact .inl (.inl rfl)
        · rcases List.mem_append.mp hg' with hg' | hg'
          · exact .inl (.inr hg')
          · exact .inr (List.mem_singleton.mp hg' ▸ hnew)
      · exact List.mem_append_right _ (List.mem_singleton_self _)
      · have := hmine e
        rw [hr] at this
        cases this

/-- A membership of a known nick is added. -/
theorem addMemb_adds (h : Graph O) (hc : c ∈ O.channels) (hg : Known O g) {ch : ChannelState}
    {gn : NetworkNick} (hch : O.chanHeap c = some ch) (hgn : O.nickHeap g = some gn)
    (modes : Modes) : Adds a c O (addMemb O c g ch gn modes) where
  grows := by
    refine ⟨fun g' n hn => ?_, fun m cn hm _ => ?_, fun x hx => Heap.set_other hx, rfl⟩
    · by_cases e : g' = g
      · subst e
        rw [hgn] at hn
        cases hn
        exact ⟨_, Heap.set_same _ _ _, rfl⟩
      · exact ⟨n, (Heap.set_other e).trans hn, rfl⟩
    · exact (Heap.set_other (h.memb_lt hm).ne).trans hm
  graph := h.addMemb hc hg hch hgn
  channels := rfl
  memb := fun _ _ hm => (Heap.set_other (h.memb_lt hm).ne).trans hm
  names := fun _ => .inl

theorem Adds.trans {O₁ O₂ : NetworkState} (h : Adds a c O O₁) (h' : Adds a c O₁ O₂) :
    Adds a c O O₂ where
  grows := by
    refine ⟨fun g n hn => ?_, fun m cn hm _ => h'.memb m cn (h.memb m cn hm), fun x hx => ?_,
      h'.grows.info.trans h.grows.info⟩
    · obtain ⟨n₁, hn₁, e₁⟩ := h.grows.nick g n hn
      obtain ⟨n₂, hn₂, e₂⟩ := h'.grows.nick g n₁ hn₁
      exact ⟨n₂, hn₂, by rw [e₂, e₁]⟩
    · exact (h'.grows.chan x hx).trans (h.grows.chan x hx)
  graph := h'.graph
  channels := h'.channels.trans h.channels
  memb := fun m cn hm => h'.memb m cn (h.memb m cn hm)
  names := by
    intro g hg
    rcases h'.names g hg with hk | hn
    · exact (h.names g hk).imp_right h'.grows.name
    · exact .inr hn

/-- A nick that is no member yet becomes one. -/
theorem View.addMember (h : View nick hm S O done acc) (hS : Tellable S) (hg : Known S g)
    (ha : nameOf S g = some a) (hc : c ∈ O.channels) {ch : ChannelState}
    (hch : O.chanHeap c = some ch) {p : Option Byte}
    (hp : ∀ b ∈ p, isPrefix (some b) (some networkInfoInit) = true)
    (hno : findMember O (some networkInfoInit) a ch.nicks = .ok none) {modes : Modes}
    (hmodes : prefixModes networkInfoInit p = .ok modes) :
    ∃ x O' cn, findAddChannelNick O c (p.toList ++ a) = .ok (x, O') ∧ Adds a c O O' ∧
      O'.chanHeap c = some { ch with nicks := ch.nicks ++ [x] } ∧ O'.membHeap x = some cn ∧
      cn.modes = modes ∧ nameOf O' cn.globalNick = some a ∧ (a = nick → cn.globalNick = meRef) := by
  obtain ⟨ch', hch', hw, -⟩ := h.graph.chan_live c hc
  rw [hch] at hch'
  cases hch'
  have hspell := hS.nicks g a hg ha
  have hstrip : stripPrefix (some networkInfoInit) a = a := stripPrefix_of_not hspell.prefixless
  -- the prefix character is told from the name
  have hsplit : (if isPrefix (p.toList ++ a).head? (some networkInfoInit) then
      (p.toList ++ a).head? else none) = p ∧
      stripPrefix (some networkInfoInit) (p.toList ++ a) = a := by
    cases p with
    | none =>
        rw [Option.toList_none, List.nil_append, hspell.prefixless]
        exact ⟨rfl, hstrip⟩
    | some b =>
        have hb := hp b rfl
        rw [Option.toList_some, List.singleton_append, stripPrefix, List.head?_cons, hb]
        exact ⟨rfl, rfl⟩
  have hfind : findChannelNick O c a = .ok none := by
    rw [findChannelNick_eq h.graph hc hch, h.info, hstrip, hno]
  obtain ⟨g', O₁, hadd, hadds, hheap, hk, hname, hmine⟩ := h.findAddNetworkNick hS hg ha c
  obtain ⟨gn, hgn, -⟩ := hadds.graph.nick_live g' hk
  have hch₁ : O₁.chanHeap c = some ch := hheap ▸ hch
  have hadds' : Adds a c O₁ (addMemb O₁ c g' ch gn modes) :=
    addMemb_adds hadds.graph (hadds.channels ▸ hc) hk hch₁ hgn modes
  refine ⟨O₁.next, _, _, ?_, hadds.trans hadds', Heap.set_same _ _ _, Heap.set_same _ _ _, rfl,
    hadds'.grows.name hname, hmine⟩
  rw [findAddChannelNick, if_neg (by simp [hspell.nonempty]), NetworkState.chan_eq hch, ok_bind,
    if_neg (by simp [hw]), h.info, hsplit.1, hsplit.2]
  dsimp only
  rw [hfind, ok_bind, addChannelNick, hadd]
  simp only [ok_bind, hadds.grows.info, h.info, hmodes, NetworkState.chan_eq hch₁,
    NetworkState.nick_eq hgn, pure_eq_ok]

end

/-! ### The channel that is being spelled out -/

/-- No channel that was told has this name. -/
def Unused (S : NetworkState) (done : List Ref) (name : Str) : Prop :=
  ∀ x ∈ done, ∀ ch, S.chanHeap x = some ch →
    Casemapping.unknown.fold ch.name ≠ Casemapping.unknown.fold name

/-- The channel at `c`, an object `ch`, is the last and is not told yet. -/
structure Opened (nick hm : Str) (S O : NetworkState) (done : List Ref) (c : Ref)
    (ch : ChannelState) : Prop where
  view : ∃ acc, O.channels = acc ++ [c] ∧ View nick hm S O done acc
  chan : O.chanHeap c = some ch

section
variable {S O O' : NetworkState} {nick hm name : Str} {done acc : List Ref} {c : Ref}
  {ch ch' : ChannelState}

theorem View.unused (h : View nick hm S O done acc) (hno : Unused S done name) :
    ∀ x ∈ acc, hasName O name x = false := by
  intro x' hx'
  obtain ⟨hlen, hz⟩ := List.forall₂_iff_zip.mp h.told
  obtain ⟨x, hx⟩ : ∃ x, (x, x') ∈ done.zip acc := by
    obtain ⟨i, hi, rfl⟩ := List.mem_iff_getElem.mp hx'
    have hi' : i < (done.zip acc).length := by
      rw [List.length_zip, hlen, Nat.min_self]
      exact hi
    exact ⟨done[i], List.getElem_zip (h := hi') ▸ List.getElem_mem hi'⟩
  obtain ⟨ch, ch', hch, hch', e, -⟩ := hz hx
  rw [hasName_eq hch', e]
  exact decide_eq_false (hno x (List.of_mem_zip hx).1 ch hch)

theorem Opened.graph (h : Opened nick hm S O done c ch) : Graph O := by
  obtain ⟨acc, -, hv⟩ := h.view
  exact hv.graph

theorem Opened.mem (h : Opened nick hm S O done c ch) : c ∈ O.channels := by
  obtain ⟨acc, hcs, -⟩ := h.view
  exact hcs ▸ List.mem_append_right _ (List.mem_singleton_self c)

/-- The channel is found by its name. -/
theorem Opened.find (h : Opened nick hm S O done c ch) (hno : Unused S done ch.name) :
    findChannel O ch.name = .ok (some c) := by
  obtain ⟨acc, hcs, hv⟩ := h.view
  exact findChannel_last hv.graph hv.info hcs h.chan (hv.unused hno)

/-- What grows at the channel leaves it the one that is being spelled out. -/
theorem Opened.grows (h : Opened nick hm S O done c ch) (hg : Grows c O O') (hgraph : Graph O')
    (hcs : O'.channels = O.channels) (hch : O'.chanHeap c = some ch')
    (hnames : ∀ g', Known O' g' → Known O g' ∨
      ∃ g a, Known S g ∧ nameOf S g = some a ∧ nameOf O' g' = some a) :
    Opened nick hm S O' done c ch' := by
  obtain ⟨acc, hacc, hv⟩ := h.view
  have hnodup := hv.graph.channels_nodup
  rw [hacc] at hnodup
  have hc : c ∉ acc := fun hm =>
    (List.nodup_append.mp hnodup).2.2 c hm c (List.mem_singleton_self c) rfl
  exact ⟨⟨acc, hcs.trans hacc, hv.grows hg hgraph hc (fun _ hx => hcs ▸ hx) hnames⟩, hch⟩

/-- Its fields are set. -/
theorem Opened.setChan (h : Opened nick hm S O done c ch) (hn : ch'.nicks = ch.nicks)
    (hw : ch'.network = ch.network) : Opened nick hm S (O.setChan c ch') done c ch' := by
  have hg : Grows c O (O.setChan c ch') :=
    ⟨fun _ n hn => ⟨n, hn, rfl⟩, fun _ _ hm _ => hm, fun _ hx => Heap.set_other hx, rfl⟩
  exact h.grows hg (h.graph.setChan h.chan hn hw) rfl (Heap.set_same _ _ _) fun _ => .inl

/-- What most handlers do to the channel a line names. -/
theorem Opened.modify (h : Opened nick hm S O done c ch) (hno : Unused S done ch.name)
    (f : ChannelState → ChannelState) : (do
      match ← findChannel O ch.name with
      | none => pure O
      | some c => O.modifyChan c f) = .ok (O.setChan c (f ch)) := by
  rw [h.find hno, ok_bind]
  dsimp only
  rw [NetworkState.modifyChan, NetworkState.chan_eq h.chan]
  rfl

/-- A channel is opened. -/
theorem View.open (h : View nick hm S O done O.channels) (name : Str) :
    Opened nick hm S (addChan O { ircChannelStateNew name with network := true }) done O.next
      { ircChannelStateNew name with network := true } := by
  have hg : Grows O.next O (addChan O { ircChannelStateNew name with network := true }) :=
    ⟨fun _ n hn => ⟨n, hn, rfl⟩, fun _ _ hm _ => hm, fun _ hx => Heap.set_other hx, rfl⟩
  have hfresh : O.next ∉ O.channels := fun hm => (h.graph.channel_lt hm).ne rfl
  refine ⟨⟨O.channels, rfl, h.grows hg (h.graph.addChan rfl rfl) hfresh ?_ fun _ => .inl⟩,
    Heap.set_same _ _ _⟩
  exact fun _ hx => List.mem_append_left _ hx

/-! ### JOIN -/

/-- The user is the only member. -/
def OnlyMe (O : NetworkState) (ch : ChannelState) : Prop :=
  ∃ x cn, ch.nicks = [x] ∧ O.membHeap x = some cn ∧ cn.globalNick = meRef

/-- A channel as it is after the user joined it. -/
structure Joined (O : NetworkState) (name : Str) (ch : ChannelState) : Prop where
  name : ch.name = name
  topic : ch.topic = none
  setter : ch.topicSetBy = none
  started : ch.namreplyStarted = false
  onlyMe : OnlyMe O ch

/-- **JOIN** opens a channel with the user as its only member. -/
theorem View.joinChannel (h : View nick hm S O done O.channels) (hS : Tellable S)
    (hme : nameOf S meRef = some nick) (hno : Unused S done name) : ∃ O' c ch,
      joinChannel hm nick O name = .ok O' ∧ Opened nick hm S O' done c ch ∧ Joined O' name ch := by
  have hopen := h.open name
  have hfind : findChannel O name = .ok none := by
    rw [findChannel_find? h.graph h.info]
    congr 1
    exact List.find?_eq_none.mpr fun x hx => by simp [h.unused hno x hx]
  set ch₀ : ChannelState := { ircChannelStateNew name with network := true } with hch₀
  obtain ⟨acc, -, hv⟩ := hopen.view
  have hnone : findMember (addChan O ch₀) (some networkInfoInit) nick ch₀.nicks = .ok none := rfl
  obtain ⟨x, O', cn, hadd, hadds, hch', hcn, -, -, hmine⟩ :=
    hv.addMember (p := none) hS (.inl rfl) hme hopen.mem hopen.chan nofun hnone rfl
  have hopen' := hopen.grows hadds.grows hadds.graph hadds.channels hch' fun g' hg' =>
    (hadds.names g' hg').imp_right fun hn => ⟨meRef, nick, .inl rfl, hme, hn⟩
  have hg := hmine rfl
  obtain ⟨acc', -, hv'⟩ := hopen'.view
  obtain ⟨me, hme', hnick, hmask, -⟩ := hv'.me
  refine ⟨O', O.next, _, ?_, hopen', rfl, rfl, rfl, rfl, x, cn, rfl, hcn, hg⟩
  rw [Option.toList_none, List.nil_append] at hadd
  rw [Ctrlproxy.joinChannel, findAddChannel, hfind]
  have hset : O'.setNick meRef (networkNickSetHostmask me hm) = O' := by
    rw [networkNickSetHostmask_same hmask, NetworkState.setNick, Heap.set_eq_self hme']
  simp only [ok_bind, pure_eq_ok, ← hch₀, hadd, NetworkState.memb_eq hcn, hg,
    NetworkState.modifyNick, NetworkState.nick_eq hme', hset, hnick]
  rfl

/-! ### Names -/

/-- The name a member is listed by, with the character of its first prefix. -/
def MemberArg (S : NetworkState) (m : Ref) (w : Str) : Prop :=
  ∃ cn a p, S.membHeap m = some cn ∧ nameOf S cn.globalNick = some a ∧
    getPrefixFromModes S.info cn.modes = .ok p ∧ w = p.toList ++ a

/-- The prefixes of modes, and the modes of prefixes, in a state without announcements. -/
theorem getPrefixFromModes_init (modes : Modes) : ∃ p,
    getPrefixFromModes networkInfoInit modes = .ok p ∧
    (∀ b ∈ p, isPrefix (some b) (some networkInfoInit) = true) ∧
    ∃ modes', prefixModes networkInfoInit p = .ok modes' := by
  rw [getPrefixFromModes, prefixTable_init]
  have ho : modeSlot (chr 'o') = .ok ⟨111, by decide⟩ := by decide
  have hv : modeSlot (chr 'v') = .ok ⟨118, by decide⟩ := by decide
  simp only [firstPrefix, ho, hv, ok_bind, pure_eq_ok]
  split
  · refine ⟨some (chr '@'), rfl, ?_, ?_⟩
    · rintro b ⟨⟩
      exact isPrefix_init.mpr (.inl rfl)
    · exact ⟨_, rfl⟩
  · split
    · refine ⟨some (chr '+'), rfl, ?_, ?_⟩
      · rintro b ⟨⟩
        exact isPrefix_init.mpr (.inr rfl)
      · exact ⟨_, rfl⟩
    · exact ⟨none, rfl, nofun, _, rfl⟩

/-- The user's membership is freed before the first names are added. -/
theorem Opened.freeNames (h : Opened nick hm S O done c ch) (hme : OnlyMe O ch) : ∃ O',
    freeNames O c = .ok O' ∧ Opened nick hm S O' done c { ch with nicks := [] } := by
  obtain ⟨x, cn, hx, hcn, hg⟩ := hme
  obtain ⟨cn', gn, hl, hc⟩ := h.graph.link_of_chan h.mem h.chan (by rw [hx]; exact List.mem_cons_self)
  obtain rfl : cn' = cn := Option.some.inj (hl.memb.symm.trans hcn)
  have hq : gn.query = true := h.graph.me_query gn (hg ▸ hl.nick)
  have hfree := freeChannelNick_eq h.graph hl
  rw [removeMemb_query hq] at hfree
  have hch' : (unlink O x cn' ch gn).chanHeap c = some { ch with nicks := [] } := by
    have : ch.nicks.erase x = [] := by rw [hx]; simp
    rw [unlink, hc, this]
    exact Heap.set_same _ _ _
  have hgraph : Graph (unlink O x cn' ch gn) :=
    Trim.graph (.unlink hl.chan_mem hl.known hl.memb hl.chan hl.nick) h.graph
  have hgrows : Grows c O (unlink O x cn' ch gn) := by
    refine ⟨fun g n hn => ?_, fun m cn hm hne => ?_, fun y hy => ?_, rfl⟩
    · by_cases e : g = cn'.globalNick
      · subst e
        rw [hl.nick] at hn
        cases hn
        exact ⟨_, Heap.set_same _ _ _, rfl⟩
      · exact ⟨n, (Heap.set_other e).trans hn, rfl⟩
    · refine (Heap.del_other ?_).trans hm
      rintro rfl
      rw [hcn] at hm
      cases hm
      exact hne hc
    · rw [unlink, hc]
      exact Heap.set_other hy
  refine ⟨_, ?_, h.grows hgrows hgraph rfl hch' fun _ => .inl⟩
  have hloop : whileFree (nicksOf c) freeChannelNick 1 O = .ok (unlink O x cn' ch gn) := by
    simp only [whileFree, nicksOf, NetworkState.chan_eq h.chan, ok_bind, pure_eq_ok, hx, hfree,
      NetworkState.chan_eq hch', if_true]
  rw [Ctrlproxy.freeNames, NetworkState.chan_eq h.chan, ok_bind, hx, List.length_singleton, hloop,
    ok_bind, NetworkState.modifyChan, NetworkState.chan_eq hch', ok_bind, pure_eq_ok,
    NetworkState.setChan, Heap.set_eq_self hch']

section
variable {c₀ : Ref} {ch₀ : ChannelState} {taken rest : List Ref} {m : Ref} {w : Str}

/-- A member that was not listed yet is no member of the observer's channel. -/
theorem Tellable.findMember (hS : Tellable S) (hc₀ : c₀ ∈ S.channels)
    (hch₀ : S.chanHeap c₀ = some ch₀) (hsplit : ch₀.nicks = taken ++ m :: rest)
    (htold : List.Forall₂ (MemberTold S O) taken ch.nicks) {cn : ChannelNick} {a : Str}
    (hcn : S.membHeap m = some cn) (ha : nameOf S cn.globalNick = some a) :
    findMember O (some networkInfoInit) a ch.nicks = .ok none := by
  have hm : m ∈ ch₀.nicks := hsplit ▸ List.mem_append_right _ List.mem_cons_self
  obtain ⟨ch₁, hch₁, -, hnodup⟩ := hS.named.graph.chan_live c₀ hc₀
  rw [hch₀] at hch₁
  cases hch₁
  have known : ∀ {y cn}, y ∈ ch₀.nicks → S.membHeap y = some cn → Known S cn.globalNick := by
    intro y cn hy hcn
    obtain ⟨cn', hcn', -, hk, -⟩ := hS.named.graph.to_nick c₀ hc₀ ch₀ hch₀ y hy
    rw [hcn] at hcn'
    cases hcn'
    exact hk
  have test : ∀ x ∈ ch.nicks, (do
      let cn ← O.memb x
      let n ← O.nick cn.globalNick
      ircEq (some networkInfoInit) n.nick (some a)) = .ok false := by
    intro x hx
    obtain ⟨y, hy, cn₁, cn₂, b, p, hcn₁, hcn₂, hb, hb', -⟩ :
        ∃ y ∈ taken, MemberTold S O y x := by
      obtain ⟨i, hi, rfl⟩ := List.mem_iff_getElem.mp hx
      have hi' : i < taken.length := htold.length_eq ▸ hi
      exact ⟨taken[i], List.getElem_mem hi', htold.get hi' hi⟩
    obtain ⟨n, hn, hname⟩ := Option.bind_eq_some_iff.mp hb'
    rw [NetworkState.memb_eq hcn₂, ok_bind, NetworkState.nick_eq hn, ok_bind, hname, ircEq_init,
      Except.ok.injEq, decide_eq_false_iff_not]
    intro e
    have hy' : y ∈ ch₀.nicks := hsplit ▸ List.mem_append_left _ hy
    have hg : cn₁.globalNick = cn.globalNick :=
      hS.named.unique.distinct _ _ b a (known hy' hcn₁) (known hm hcn) hb ha e
    have hym : y = m :=
      hS.named.unique.members c₀ hc₀ ch₀ hch₀ y hy' m hm cn₁ cn hcn₁ hcn hg
    rw [hsplit] at hnodup
    exact (List.nodup_append.mp hnodup).2.2 y hy m List.mem_cons_self hym
  rw [Ctrlproxy.findMember, findFirst_eq_find? test]
  congr 1
  exact List.find?_eq_none.mpr fun _ _ => Bool.false_ne_true

/-- One name of a 353 line. -/
theorem Opened.addName (hS : Tellable S) (h : Opened nick hm S O done c ch) (hc₀ : c₀ ∈ S.channels)
    (hch₀ : S.chanHeap c₀ = some ch₀) (hsplit : ch₀.nicks = taken ++ m :: rest)
    (htold : List.Forall₂ (MemberTold S O) taken ch.nicks) (hw : MemberArg S m w) :
    ∃ O' x, addName c O w = .ok O' ∧
      Opened nick hm S O' done c { ch with nicks := ch.nicks ++ [x] } ∧
      List.Forall₂ (MemberTold S O') (taken ++ [m]) (ch.nicks ++ [x]) := by
  obtain ⟨cn, a, p, hcn, ha, hp, rfl⟩ := hw
  have hm : m ∈ ch₀.nicks := hsplit ▸ List.mem_append_right _ List.mem_cons_self
  obtain ⟨cn', hcn', -, hk, -⟩ := hS.named.graph.to_nick c₀ hc₀ ch₀ hch₀ m hm
  obtain rfl : cn' = cn := Option.some.inj (hcn'.symm.trans hcn)
  obtain ⟨p', hp', hprefix, modes, hmodes⟩ := getPrefixFromModes_init cn'.modes
  have hpp : p' = p := by
    rw [hS.info, hp'] at hp
    exact Except.ok.inj hp
  subst hpp
  have hno := hS.findMember hc₀ hch₀ hsplit htold hcn ha
  obtain ⟨acc, -, hv⟩ := h.view
  obtain ⟨x, O', cnO, hadd, hadds, hch', hcnO, hmodesO, hname, -⟩ :=
    hv.addMember hS hk ha h.mem h.chan hprefix hno hmodes
  have hne : p'.toList ++ a ≠ [] := by simp [(hS.nicks _ a hk ha).nonempty]
  refine ⟨O', x, ?_, ?_, ?_⟩
  · rw [Ctrlproxy.addName, if_neg hne, hadd]
    rfl
  · exact h.grows hadds.grows hadds.graph hadds.channels hch' fun g' hg' =>
      (hadds.names g' hg').imp_right fun hn => ⟨_, a, hk, ha, hn⟩
  · have hnew : MemberTold S O' m x := by
      refine ⟨cn', cnO, a, p', hcn, hcnO, ha, hname, hp, ?_⟩
      rw [hadds.grows.info, hv.info, hmodesO]
      exact hmodes
    exact List.rel_append (htold.imp fun _ y ht => ht.keep hadds.grows (hadds.memb y))
      (.cons hnew .nil)

/-- The names of a 353 line, one after another. -/
theorem Opened.addNames (hS : Tellable S) (h : Opened nick hm S O done c ch) (hc₀ : c₀ ∈ S.channels)
    (hch₀ : S.chanHeap c₀ = some ch₀) {more : List Ref} {ws : List Str}
    (hws : List.Forall₂ (MemberArg S) more ws) (hsplit : ch₀.nicks = taken ++ more ++ rest)
    (htold : List.Forall₂ (MemberTold S O) taken ch.nicks) :
    ∃ O' l, ws.foldlM (Ctrlproxy.addName c) O = .ok O' ∧
      Opened nick hm S O' done c { ch with nicks := l } ∧
      List.Forall₂ (MemberTold S O') (taken ++ more) l := by
  induction hws generalizing O ch taken with
  | nil => exact ⟨O, ch.nicks, rfl, h, by rwa [List.append_nil]⟩
  | @cons m w more ws hw _ ih =>
      have hhead : ch₀.nicks = taken ++ m :: (more ++ rest) := by
        rw [hsplit, List.append_assoc, List.cons_append]
      obtain ⟨O₁, x, hadd, h₁, htold₁⟩ := h.addName hS hc₀ hch₀ hhead htold hw
      have hnext : ch₀.nicks = taken ++ [m] ++ more ++ rest := by
        rw [hsplit, List.append_assoc taken [m], List.singleton_append]
      obtain ⟨O', l, hfold, h', htold'⟩ := ih h₁ hnext htold₁
      refine ⟨O', l, ?_, h', ?_⟩
      · rw [List.foldlM_cons, hadd, ok_bind, hfold]
      · rwa [List.append_assoc, List.singleton_append] at htold'

/-- The first 353 line empties the channel, the others leave it. -/
theorem Opened.restartNames (h : Opened nick hm S O done c ch)
    (hlisted : taken = [] ∧ ch.namreplyStarted = false ∧ OnlyMe O ch ∨
      ch.namreplyStarted = true ∧ List.Forall₂ (MemberTold S O) taken ch.nicks) :
    ∃ O' l, restartNames O c = .ok O' ∧
      Opened nick hm S O' done c { ch with namreplyStarted := true, nicks := l } ∧
      List.Forall₂ (MemberTold S O') taken l := by
  rcases hlisted with ⟨rfl, hstarted, hme⟩ | ⟨hstarted, htold⟩
  · obtain ⟨O₁, hfree, h₁⟩ := h.freeNames hme
    have h₂ : Opened nick hm S _ done c { ch with namreplyStarted := true, nicks := [] } :=
      h₁.setChan rfl rfl
    refine ⟨_, [], ?_, h₂, .nil⟩
    rw [Ctrlproxy.restartNames, NetworkState.chan_eq h.chan, ok_bind, hstarted]
    simp only [Bool.false_eq_true, if_false, hfree, ok_bind, NetworkState.modifyChan,
      NetworkState.chan_eq h₁.chan, pure_eq_ok]
  · refine ⟨O, ch.nicks, ?_, ?_, htold⟩
    · rw [Ctrlproxy.restartNames, NetworkState.chan_eq h.chan, ok_bind, hstarted]
      rfl
    · have hsame : { ch with namreplyStarted := true } = ch := by rw [← hstarted]
      exact hsame.symm ▸ h

/-- **353** lists more members. -/
theorem Opened.handleNamreply (hS : Tellable S) (h : Opened nick hm S O done c ch)
    (hno : Unused S done ch.name) (hc₀ : c₀ ∈ S.channels) (hch₀ : S.chanHeap c₀ = some ch₀)
    (hname : ch.name = ch₀.name) {more : List Ref} {n : Str} {ns : List Str}
    (hws : List.Forall₂ (MemberArg S) more (n :: ns)) (hsplit : ch₀.nicks = taken ++ more ++ rest)
    (hn : n ≠ []) (hspace : ∀ x ∈ n :: ns, chr ' ' ∉ x)
    (hlisted : taken = [] ∧ ch.namreplyStarted = false ∧ OnlyMe O ch ∨
      ch.namreplyStarted = true ∧ List.Forall₂ (MemberTold S O) taken ch.nicks)
    (origin : Option Str) (target : Str) :
    ∃ O' l, Ctrlproxy.handleNamreply O (namesWire origin target ch₀ n ns) = .ok O' ∧
      Opened nick hm S O' done c { ch with mode := ch₀.mode, namreplyStarted := true, nicks := l } ∧
      List.Forall₂ (MemberTold S O') (taken ++ more) l := by
  have h₁ : Opened nick hm S (O.setChan c { ch with mode := ch₀.mode }) done c
      { ch with mode := ch₀.mode } := h.setChan rfl rfl
  obtain ⟨O₂, l₂, hrestart, h₂, htold₂⟩ := h₁.restartNames hlisted
  obtain ⟨O', l, hfold, h', htold⟩ := h₂.addNames hS hc₀ hch₀ hws hsplit htold₂
  refine ⟨O', l, ?_, h', htold⟩
  have hfind := h.find hno
  have hmode : ch₀.mode.toList.head? = ch₀.mode := by cases ch₀.mode <;> rfl
  have h3 : (namesWire origin target ch₀ n ns).argStr 3 = .ok ch.name := by rw [hname]; rfl
  have h4 : (namesWire origin target ch₀ n ns).argStr 4 = .ok (joinNames n ns) := rfl
  have h2 : (namesWire origin target ch₀ n ns).argStr 2 = .ok ch₀.mode.toList := rfl
  rw [Ctrlproxy.handleNamreply, h3, ok_bind, hfind, ok_bind]
  simp only [h4, h2, ok_bind, hmode, NetworkState.modifyChan, NetworkState.chan_eq h.chan,
    pure_eq_ok, hrestart, gStrsplit_joinNames hn hspace, hfold]

end

end

end Ctrlproxy
