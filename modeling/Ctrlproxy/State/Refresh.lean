import Ctrlproxy.Lib.Lists
import Ctrlproxy.State.Departure

/-!
# State — a refreshed list of members

The first 353 line of a listing takes all members out of the channel, and with them the nicks that
are on no other channel.  This and the lines behind it add the names one by one: a nick that is
still known is found and attached again, the others are new.  The 366 line ends the listing
(`namesRefresh_iff`).

A prefix character may stand for the mode `0xFF`, which has no place in the mode table of a member;
a listing in which a name is added with such a prefix writes outside of it.
-/

namespace Ctrlproxy
open Outcome

/-! ### Names of a listing -/

/-- The prefix character of a name. -/
def prefixOf (info : NetworkInfo) (name : Str) : Option Byte :=
  if isPrefix name.head? (some info) then name.head? else none

/-- The mode a name comes with. -/
def nameMode (info : NetworkInfo) (name : Str) : Option Byte :=
  (prefixOf info name).bind fun p => getModeByPrefix p info

/-- The mode has a place in the table. -/
def ModeFits (info : NetworkInfo) (name : Str) : Prop :=
  ∀ b, nameMode info name = some b → b.1 < MAXMODES

/-- Exactly the mode of the prefix is set. -/
def modesNamed (info : NetworkInfo) (name : Str) : Modes :=
  fun i => decide ((nameMode info name).map (·.1) = some i.1)

/-- A name without its prefix, folded. -/
def listedKey (m : Casemapping) (info : NetworkInfo) (name : Str) : Str :=
  m.fold (stripPrefix (some info) name)

/-- A name is added, unless it is there up to case. -/
def addFirst (m : Casemapping) (info : NetworkInfo) (names : List Str) (name : Str) : List Str :=
  if ∃ y ∈ names, listedKey m info y = listedKey m info name then names else names ++ [name]

/-- The names without repetitions, in the order of their first occurrences. -/
def firstOccurrences (m : Casemapping) (info : NetworkInfo) (names : List Str) : List Str :=
  names.foldl (addFirst m info) []

/-- At most one prefix character in front of a nick, which is there and begins with none. -/
structure Listable (info : NetworkInfo) (name : Str) : Prop where
  nonempty : stripPrefix (some info) name ≠ []
  unprefixed : isPrefix (stripPrefix (some info) name).head? (some info) = false

section
variable {m : Casemapping} {info : NetworkInfo} {name y : Str} {names ys : List Str}

theorem prefixModes_eq (hfit : ModeFits info name) :
    prefixModes info (prefixOf info name) = .ok (modesNamed info name) := by
  rw [ModeFits, nameMode] at hfit
  have hmodes : modesNamed info name = fun i => decide
      (((prefixOf info name).bind fun p => getModeByPrefix p info).map (·.1) = some i.1) := rfl
  cases hp : prefixOf info name with
  | none =>
      rw [hmodes, hp]
      rfl
  | some p =>
      rw [hp] at hfit
      rw [hmodes, hp, prefixModes]
      cases hmode : getModeByPrefix p info with
      | none =>
          simp only [Option.bind_some, hmode, Option.map_none, reduceCtorEq, decide_false]
          rfl
      | some b =>
          have hb : b.1 < MAXMODES := hfit b hmode
          simp only [modesChangeMode, modeSlot, dif_pos hb, ok_bind, pure_eq_ok, Option.bind_some,
            hmode, Option.map_some, Option.some_inj]
          refine congrArg Except.ok (funext fun i => ?_)
          simp only [ModeArray.set, modesClear, Fin.ext_iff, eq_comm]
          by_cases e : b.1 = i.1 <;> simp [e]

theorem prefixModes_error (hfit : ¬ ModeFits info name) :
    prefixModes info (prefixOf info name) = .error .modeIndex := by
  rw [ModeFits, nameMode] at hfit
  push Not at hfit
  obtain ⟨b, hb, hbig⟩ := hfit
  obtain ⟨p, hp, hmode⟩ := Option.bind_eq_some_iff.mp hb
  rw [hp, prefixModes]
  simp only [hmode, modesChangeMode, modeSlot, dif_neg (not_lt.mpr hbig), error_bind]

theorem subset_addFirst : names ⊆ addFirst m info names name := by
  intro y hy
  rw [addFirst]
  split
  · exact hy
  · exact List.mem_append_left _ hy

theorem subset_foldl_addFirst : names ⊆ ys.foldl (addFirst m info) names := by
  induction ys generalizing names with
  | nil => exact fun _ => id
  | cons y ys ih => exact fun _ hx => ih (subset_addFirst hx)

theorem foldl_addFirst_subset : ys.foldl (addFirst m info) names ⊆ names ++ ys := by
  induction ys generalizing names with
  | nil => exact fun _ hx => List.mem_append_left _ hx
  | cons y ys ih =>
      intro x hx
      have hx' := ih hx
      rw [addFirst] at hx'
      split at hx' <;> simp only [List.mem_append, List.mem_cons, List.not_mem_nil] at hx' ⊢ <;> tauto

end

/-! ### A listing under way -/

/-- The nick at `g` is a member of the channel at `c`. -/
def MemberOf (s : NetworkState) (c g : Ref) : Prop :=
  ∃ ch, s.chanHeap c = some ch ∧ ∃ x ∈ ch.nicks, ∃ cn, s.membHeap x = some cn ∧ cn.globalNick = g

/-- The membership at `x` is that of a listed name: its nick has the name, and its modes are that of
the prefix. -/
def IsListed (m : Casemapping) (s : NetworkState) (x : Ref) (name : Str) : Prop :=
  ∃ cn, s.membHeap x = some cn ∧ nickKey m s cn.globalNick = some (listedKey m s.info name) ∧
    cn.modes = modesNamed s.info name

/-- The state `t` in a listing of the members of `c` that found the state `s` and has read
`names`. -/
structure Listing (m : Casemapping) (s : NetworkState) (c : Ref) (names : List Str)
    (t : NetworkState) : Prop where
  named : Named m t
  info : t.info = s.info
  channels : t.channels = s.channels
  /-- The channel has the names for members. -/
  listed : ∃ ch ch', s.chanHeap c = some ch ∧ t.chanHeap c = some ch' ∧ ch'.name = ch.name ∧
    ch'.namreplyStarted = true ∧ List.Forall₂ (IsListed m t) ch'.nicks names
  /-- Every other channel and its memberships are as before. -/
  others : ∀ c' ∈ s.channels, c' ≠ c → t.chanHeap c' = s.chanHeap c' ∧
    ∀ ch, s.chanHeap c' = some ch → ∀ x ∈ ch.nicks, t.membHeap x = s.membHeap x
  /-- A nick is there for its query, for a channel, or because it never was on this one. -/
  kept : ∀ g ∈ t.nicks, (g ∈ s.nicks ∧ ¬ MemberOf s c g) ∨
    ∃ n, t.nickHeap g = some n ∧ (n.query = true ∨ n.channelNicks ≠ [])
  fits : ∀ name ∈ names, ModeFits s.info name

section
variable {m : Casemapping} {s t : NetworkState} {c : Ref} {name : Str} {names : List Str}

/-- The members are searched among the names. -/
theorem Listing.findMember (h : Listing m s c names t) (hg : c ∈ t.channels) {ch : ChannelState}
    (hch : t.chanHeap c = some ch) (name : Str) :
    (∃ x, findMember t (some t.info) name ch.nicks = .ok (some x)) ∧
        (∃ y ∈ names, listedKey m s.info y = m.fold name) ∨
      findMember t (some t.info) name ch.nicks = .ok none ∧
        ¬ ∃ y ∈ names, listedKey m s.info y = m.fold name := by
  obtain ⟨-, ch', -, hch', -, -, hlist⟩ := h.listed
  obtain rfl := Option.some.inj (hch.symm.trans hch')
  have hkey : ∀ {x y}, IsListed m t x y → membKey m t x = some (listedKey m s.info y) := by
    rintro x y ⟨cn, hcn, hk, -⟩
    rw [membKey_eq hcn, hk, h.info]
  rw [findMember_eq h.named.graph h.named.mapping h.named.unique hg hch]
  cases hx : ch.nicks.find? fun x => membKey m t x = some (m.fold name) with
  | some x =>
      refine .inl ⟨⟨x, rfl⟩, ?_⟩
      have hxkey := List.find?_some hx
      obtain ⟨y, hy, hxy⟩ := forall₂_left hlist (List.mem_of_find?_eq_some hx)
      exact ⟨y, hy, Option.some.inj ((hkey hxy).symm.trans (of_decide_eq_true hxkey))⟩
  | none =>
      refine .inr ⟨rfl, ?_⟩
      rintro ⟨y, hy, e⟩
      obtain ⟨x, hmem, hxy⟩ := forall₂_right hlist hy
      exact List.find?_eq_none.mp hx x hmem (decide_eq_true ((hkey hxy).trans (congrArg some e)))

/-- `find_add_network_nick` returns, when it need not create a nick with a prefix character; only
the nick it returns may be new. -/
theorem findAddNetworkNick_ok (h : Named m t)
    (hp : isPrefix name.head? (some t.info) = false) : ∃ g t₁,
      findAddNetworkNick t name = .ok (g, t₁) ∧ FoundNick m t name (g, t₁) ∧
      (∀ g' ∈ t₁.nicks, g' ∈ t.nicks ∨ g' = g) ∧
      ∀ g' ∈ t.nicks, t₁.nickHeap g' = t.nickHeap g' := by
  have heval : ∃ r, findAddNetworkNick t name = .ok r ∧
      (∀ g' ∈ r.2.nicks, g' ∈ t.nicks ∨ g' = r.1) ∧
      ∀ g' ∈ t.nicks, r.2.nickHeap g' = t.nickHeap g' := by
    rw [findAddNetworkNick, findNetworkNick_eq h.mapping h.unique, ok_bind]
    cases (meRef :: t.nicks).find? fun g => nickKey m t g = some (m.fold name) with
    | some g => exact ⟨_, rfl, fun _ => .inl, fun _ _ => rfl⟩
    | none =>
        refine ⟨(t.next, addNick t (newNetworkNick name)), by simp [hp], fun g' hg' => ?_,
          fun g' hg' => ?_⟩
        · exact (List.mem_append.mp hg').imp_right List.mem_singleton.mp
        · exact Heap.set_other (h.graph.known_lt (.inr hg')).ne
  obtain ⟨⟨g, t₁⟩, heval, hnicks, hheap⟩ := heval
  exact ⟨g, t₁, heval, (findAddNetworkNick_named h name).of_ok heval, hnicks, hheap⟩

/-- A name that is not there is added at the end. -/
theorem Listing.addChannelNick (h : Listing m s c names t) (hc : c ∈ s.channels)
    (hname : Listable s.info name) {ch : ChannelState} (hch : t.chanHeap c = some ch)
    (habs : Ctrlproxy.findMember t (some t.info) (stripPrefix (some s.info) name) ch.nicks =
      .ok none) (hfit : ModeFits s.info name) : ∃ x t',
    Ctrlproxy.addChannelNick t c (stripPrefix (some s.info) name) (prefixOf s.info name) =
      .ok (x, t') ∧ Listing m s c (names ++ [name]) t' := by
  have hct : c ∈ t.channels := h.channels ▸ hc
  have hplain : isPrefix (stripPrefix (some s.info) name).head? (some t.info) = false :=
    h.info ▸ hname.unprefixed
  obtain ⟨g, t₁, heval, hf, hnicks, hheap⟩ := findAddNetworkNick_ok h.named hplain
  obtain ⟨gn, hgn, -⟩ := hf.named.graph.nick_live g hf.known
  have hch₁ : t₁.chanHeap c = some ch := hf.chanHeap ▸ hch
  have hinfo : t₁.info = s.info := hf.info.trans h.info
  have hadd : Ctrlproxy.addChannelNick t c (stripPrefix (some s.info) name)
      (prefixOf s.info name) = .ok (t₁.next, addMemb t₁ c g ch gn (modesNamed s.info name)) := by
    simp only [Ctrlproxy.addChannelNick, heval, ok_bind, hinfo, prefixModes_eq hfit,
      NetworkState.chan_eq hch₁, NetworkState.nick_eq hgn, pure_eq_ok]
  have hmemb := (addChannelNick_named h.named hct hch habs _).of_ok hadd
  refine ⟨_, _, hadd, ?_⟩
  have hname' : ∀ g', nameOf (addMemb t₁ c g ch gn (modesNamed s.info name)) g' = nameOf t₁ g' :=
    fun g' => nameOf_keep rfl hgn (by rfl) g'
  have hnext : (addMemb t₁ c g ch gn (modesNamed s.info name)).membHeap t₁.next = some
      { modes := modesNamed s.info name, globalNick := g, channel := c, lastUpdate := long0,
        lastFlags := none } := Heap.set_same _ _ _
  -- members of a channel are older than the new membership
  have hold : ∀ c' ∈ t.channels, ∀ ch', t.chanHeap c' = some ch' → ∀ x ∈ ch'.nicks,
      (addMemb t₁ c g ch gn (modesNamed s.info name)).membHeap x = t.membHeap x := by
    intro c' hc' ch' hch' x hx
    obtain ⟨cn, gn', hl, -⟩ := h.named.graph.link_of_chan hc' hch' hx
    have hx₁ : t₁.membHeap x = some cn := hf.membHeap ▸ hl.memb
    have hne : x ≠ t₁.next := (hf.named.graph.memb_lt hx₁).ne
    exact (Heap.set_other hne).trans (congrFun hf.membHeap x)
  obtain ⟨ch₀, ch', hch₀, hch', hcname, hstarted, hlist⟩ := h.listed
  obtain rfl := Option.some.inj (hch.symm.trans hch')
  refine ⟨hmemb.named, hinfo, hf.channels.trans h.channels,
    ⟨ch₀, _, hch₀, Heap.set_same _ _ _, hcname, hstarted, forall₂_snoc ?_ ?_⟩, ?_, ?_, ?_⟩
  · refine forall₂_imp_mem hlist fun x hx y _ hxy => ?_
    obtain ⟨cn, hcn, hkey, hmodes⟩ := hxy
    obtain ⟨cn', gn', hl, -⟩ := h.named.graph.link_of_chan hct hch hx
    obtain rfl := Option.some.inj (hcn.symm.trans hl.memb)
    rw [h.info] at hkey hmodes
    refine ⟨cn, (hold c hct ch hch x hx).trans hcn, ?_, ?_⟩
    · rw [nickKey, hname', hf.old _ hl.known]
      exact hkey.trans (by rw [← hinfo]; rfl)
    · exact hmodes.trans (by rw [← hinfo]; rfl)
  · obtain ⟨a, ha, hfold⟩ := hf.name
    refine ⟨_, hnext, ?_, by rw [← hinfo]; rfl⟩
    rw [nickKey_eq ((hname' g).trans ha), hfold, listedKey]
    exact congrArg (fun i => some (m.fold (stripPrefix (some i) name))) hinfo.symm
  · intro c' hc' hne
    obtain ⟨hchan, hx⟩ := h.others c' hc' hne
    refine ⟨(Heap.set_other hne).trans ((congrFun hf.chanHeap c').trans hchan), ?_⟩
    intro ch' hch' x hmem
    exact (hold c' (h.channels ▸ hc') ch' (hchan.trans hch') x hmem).trans (hx ch' hch' x hmem)
  · intro g' hg'
    by_cases e : g' = g
    · subst e
      exact .inr ⟨_, Heap.set_same _ _ _, .inr (by simp)⟩
    · have hgt : g' ∈ t.nicks := (hnicks g' hg').resolve_right e
      refine (h.kept g' hgt).imp_right ?_
      rintro ⟨n, hn, hwhy⟩
      exact ⟨n, (Heap.set_other e).trans ((hheap g' hgt).trans hn), hwhy⟩
  · intro y hy
    rcases List.mem_append.mp hy with hy | hy
    · exact h.fits y hy
    · exact List.mem_singleton.mp hy ▸ hfit

/-- One name of a 353 line. -/
theorem Listing.addName (h : Listing m s c names t) (hc : c ∈ s.channels)
    (hname : Listable s.info name) :
    (∃ t', Ctrlproxy.addName c t name = .ok t' ∧
      Listing m s c (addFirst m s.info names name) t') ∨
    ¬ ModeFits s.info name ∧ name ∈ addFirst m s.info names name ∧
      Ctrlproxy.addName c t name = .error .modeIndex := by
  have hct : c ∈ t.channels := h.channels ▸ hc
  obtain ⟨ch, hch, hw, -⟩ := h.named.graph.chan_live c hct
  have hne : name ≠ [] := by
    rintro rfl
    refine hname.nonempty ?_
    rw [stripPrefix, List.head?_nil, isPrefix]
    rfl
  have hplain : findChannelNick t c (stripPrefix (some s.info) name) =
      Ctrlproxy.findMember t (some t.info) (stripPrefix (some s.info) name) ch.nicks :=
    findChannelNick_plain h.named.graph hct hch (h.info ▸ hname.unprefixed)
  have found : ∀ x, Ctrlproxy.findMember t (some t.info) (stripPrefix (some s.info) name) ch.nicks =
      .ok (some x) → Ctrlproxy.addName c t name = .ok t := by
    intro x hx
    rw [Ctrlproxy.addName, if_neg hne, findAddChannelNick, if_neg hne, NetworkState.chan_eq hch]
    simp only [ok_bind, hw, Bool.true_eq_false, if_false, h.info, hplain, h.info ▸ hx]
    rfl
  have missed : Ctrlproxy.findMember t (some t.info) (stripPrefix (some s.info) name) ch.nicks =
      .ok none → Ctrlproxy.addName c t name = (do
        let r ← Ctrlproxy.addChannelNick t c (stripPrefix (some s.info) name) (prefixOf s.info name)
        pure r.2) := by
    intro hx
    rw [Ctrlproxy.addName, if_neg hne, findAddChannelNick, if_neg hne, NetworkState.chan_eq hch]
    simp only [ok_bind, hw, Bool.true_eq_false, if_false, h.info, hplain, prefixOf, h.info ▸ hx]
  rcases h.findMember hct hch (stripPrefix (some s.info) name) with ⟨⟨x, hx⟩, hin⟩ | ⟨hx, hnot⟩
  · refine .inl ⟨t, found x hx, ?_⟩
    have hin : ∃ y ∈ names, listedKey m s.info y = listedKey m s.info name := hin
    rw [addFirst, if_pos hin]
    exact h
  · have hnot : ¬ ∃ y ∈ names, listedKey m s.info y = listedKey m s.info name := hnot
    rw [missed hx, addFirst, if_neg hnot]
    by_cases hfit : ModeFits s.info name
    · obtain ⟨x, t', hadd, h'⟩ := h.addChannelNick hc hname hch hx hfit
      exact .inl ⟨t', by simp only [hadd]; rfl, h'⟩
    · refine .inr ⟨hfit, by simp, ?_⟩
      have hplain : isPrefix (stripPrefix (some s.info) name).head? (some t.info) = false :=
        h.info ▸ hname.unprefixed
      obtain ⟨g, t₁, heval, hf, -⟩ := findAddNetworkNick_ok h.named hplain
      have hinfo : t₁.info = s.info := hf.info.trans h.info
      simp only [Ctrlproxy.addChannelNick, heval, ok_bind, hinfo, prefixModes_error hfit,
        error_bind]

/-- The names of a 353 line; empty ones are stepped over. -/
def listedNames (l : IrcLine) : List Str :=
  (gStrsplit (l.args[4]?.getD []) (chr ' ')).filter (· ≠ [])

/-- The names of a 353 line are added in turn. -/
theorem Listing.addNames {words : List Str} (h : Listing m s c names t) (hc : c ∈ s.channels)
    (hwords : ∀ w ∈ words.filter (· ≠ []), Listable s.info w) :
    (∃ t', words.foldlM (Ctrlproxy.addName c) t = .ok t' ∧
      Listing m s c ((words.filter (· ≠ [])).foldl (addFirst m s.info) names) t') ∨
    (∃ y ∈ (words.filter (· ≠ [])).foldl (addFirst m s.info) names, ¬ ModeFits s.info y) ∧
      ∃ e, words.foldlM (Ctrlproxy.addName c) t = .error e := by
  induction words generalizing t names with
  | nil => exact .inl ⟨t, rfl, h⟩
  | cons w words ih =>
      rw [List.foldlM_cons]
      by_cases hw : w = []
      · subst hw
        have hfilter : ([] :: words).filter (· ≠ []) = words.filter (· ≠ []) := by simp
        rw [hfilter] at hwords ⊢
        exact ih h hwords
      · have hfilter : (w :: words).filter (· ≠ []) = w :: words.filter (· ≠ []) := by simp [hw]
        rw [hfilter] at hwords ⊢
        rw [List.foldl_cons]
        rcases h.addName hc (hwords w List.mem_cons_self) with ⟨t', ht', h'⟩ | ⟨hfit, hin, herr⟩
        · rw [ht']
          exact ih h' fun w' hw' => hwords w' (List.mem_cons_of_mem _ hw')
        · refine .inr ⟨⟨w, subset_foldl_addFirst hin, hfit⟩, .modeIndex, ?_⟩
          rw [herr]
          rfl

/-! ### Lines -/

/-- A 353 line for the channel at `c`. -/
def NamesLine (s : NetworkState) (c : Ref) (l : IrcLine) : Prop :=
  commandOf l = some .namreply ∧
    ∃ chan, l.args[3]? = some chan ∧ findChannel s chan = .ok (some c)

/-- A 366 line for the channel at `c`. -/
def EndNamesLine (s : NetworkState) (c : Ref) (l : IrcLine) : Prop :=
  commandOf l = some .endNames ∧
    ∃ chan, l.args[2]? = some chan ∧ findChannel s chan = .ok (some c)

/-- A search by name finds the channels where it did. -/
theorem Listing.findChannel (h : Listing m s c names t) (hs : Named m s) (chan : Str) :
    findChannel t chan = Ctrlproxy.findChannel s chan := by
  rw [findChannel_eq h.named.graph h.named.mapping, findChannel_eq hs.graph hs.mapping, h.channels]
  refine congrArg Except.ok (List.find?_congr fun c' hc' => ?_)
  have hkey : channelKey m t c' = channelKey m s c' := by
    by_cases e : c' = c
    · subst e
      obtain ⟨ch, ch', hch, hch', hname, -⟩ := h.listed
      rw [channelKey_eq hch, channelKey_eq hch', hname]
    · rw [channelKey, channelKey, (h.others c' hc' e).1]
  rw [hkey]

/-- A change of the channel that keeps its name and its members. -/
theorem Listing.setChan (h : Listing m s c names t) {ch ch' : ChannelState}
    (hch : t.chanHeap c = some ch) (hname : ch'.name = ch.name) (hnicks : ch'.nicks = ch.nicks)
    (hnet : ch'.network = ch.network) (hmodes : ch'.modes = ch.modes)
    (hstarted : ch'.namreplyStarted = true) : Listing m s c names (t.setChan c ch') where
  named := h.named.quiets (.single (.chan hch hname hnicks hnet (hmodes ▸ KeepsNul.refl _)))
  info := h.info
  channels := h.channels
  listed := by
    obtain ⟨ch₀, ch₁, hch₀, hch₁, hname₁, -, hlist⟩ := h.listed
    obtain rfl := Option.some.inj (hch.symm.trans hch₁)
    exact ⟨ch₀, ch', hch₀, Heap.set_same _ _ _, hname.trans hname₁, hstarted, hnicks ▸ hlist⟩
  others := by
    intro c' hc' hne
    obtain ⟨hchan, hx⟩ := h.others c' hc' hne
    exact ⟨(Heap.set_other hne).trans hchan, hx⟩
  kept := h.kept
  fits := h.fits

/-- What a 353 line does once its channel is found. -/
theorem handleNamreply_eq {l : IrcLine} (hl : NamesLine t c l) (now : Long) {ch : ChannelState}
    (hch : t.chanHeap c = some ch) : ∃ mode, stateStep t (now, l) = (do
      let t ← restartNames (t.setChan c { ch with mode := mode }) c
      (gStrsplit (l.args[4]?.getD []) (chr ' ')).foldlM (Ctrlproxy.addName c) t) := by
  obtain ⟨hk, chan, hchan, hfind⟩ := hl
  have harg : ∀ i, i ≤ 4 → ∃ w, l.args[i]? = some w := fun i hi =>
    ⟨_, List.getElem?_eq_getElem (Nat.lt_of_le_of_lt hi (commandOf_argc hk))⟩
  obtain ⟨w, hw⟩ := harg 4 (le_refl 4)
  obtain ⟨mode, hmode⟩ := harg 2 (by decide)
  refine ⟨mode.head?, ?_⟩
  rw [stateStep_handler hk]
  change handleNamreply t l = _
  simp only [handleNamreply, IrcLine.argStr_eq hchan, IrcLine.argStr_eq hw,
    IrcLine.argStr_eq hmode, ok_bind, hfind, NetworkState.modifyChan, NetworkState.chan_eq hch,
    pure_eq_ok, hw, Option.getD_some]

/-- A membership is on one channel. -/
theorem Graph.channel_inj (h : Graph s) {c c' x : Ref} {ch ch' : ChannelState}
    (hc : c ∈ s.channels) (hch : s.chanHeap c = some ch) (hx : x ∈ ch.nicks)
    (hc' : c' ∈ s.channels) (hch' : s.chanHeap c' = some ch') (hx' : x ∈ ch'.nicks) : c = c' := by
  obtain ⟨cn, gn, hl, rfl⟩ := h.link_of_chan hc hch hx
  obtain ⟨cn', gn', hl', rfl⟩ := h.link_of_chan hc' hch' hx'
  rw [Option.some.inj (hl.memb.symm.trans hl'.memb)]

/-- The first 353 line begins a listing. -/
theorem restartNames_begins (h : Named m s) (hc : c ∈ s.channels) {ch : ChannelState}
    (hch : s.chanHeap c = some ch) (hstart : ch.namreplyStarted = false) (mode : Option Byte) :
    ∃ t, restartNames (s.setChan c { ch with mode := mode }) c = .ok t ∧ Listing m s c [] t := by
  have h₁ : Named m (s.setChan c { ch with mode := mode }) :=
    h.quiets (.single (.chan hch rfl rfl rfl (KeepsNul.refl _)))
  have hch₁ : (s.setChan c { ch with mode := mode }).chanHeap c = some { ch with mode := mode } :=
    Heap.set_same _ _ _
  obtain ⟨s₂, hs₂, w, hcs, hch₂⟩ := freeNames_without h₁.graph (.refl h₁.graph) hc hch₁
  have hother : ∀ c' ∈ s.channels, c' ≠ c → ∀ ch', s.chanHeap c' = some ch' → ∀ x ∈ ch'.nicks,
      withMembs (fun _ => false) ch.nicks x = false := by
    intro c' hc' hne ch' hch' x hx
    rw [withMembs, Bool.false_or, decide_eq_false_iff_not]
    exact fun hx' => hne (h.graph.channel_inj hc' hch' hx hc hch hx')
  have hchan : ∀ c' ∈ s.channels, c' ≠ c → s₂.chanHeap c' = s.chanHeap c' := by
    intro c' hc' hne
    obtain ⟨ch', hch', -⟩ := h.graph.chan_live c' hc'
    have hkeep : lessMembs (withMembs (fun _ => false) ch.nicks) ch'.nicks = ch'.nicks :=
      (lessMembs_congr (hother c' hc' hne ch' hch')).trans lessMembs_none
    rw [w.chan c' (hcs ▸ hc') ch' ((Heap.set_other hne).trans hch'), hkeep, hch']
  refine ⟨s₂.setChan c { ch with mode := mode, nicks := [], namreplyStarted := true }, ?_, ?_⟩
  · rw [restartNames, NetworkState.chan_eq hch₁, ok_bind, if_neg (Bool.not_eq_true _ ▸ hstart), hs₂,
      ok_bind, NetworkState.modifyChan, NetworkState.chan_eq hch₂]
    rfl
  refine ⟨(w.named h₁).quiets (.single (.chan hch₂ rfl rfl rfl (KeepsNul.refl _))), w.info, hcs,
    ⟨ch, _, hch, Heap.set_same _ _ _, rfl, rfl, .nil⟩, ?_, ?_, List.forall_mem_nil _⟩
  · intro c' hc' hne
    refine ⟨(Heap.set_other hne).trans (hchan c' hc' hne), fun ch' hch' x hx => ?_⟩
    change s₂.membHeap x = _
    rw [w.memb x ⟨c', hc', ch', (Heap.set_other hne).trans hch', hx⟩,
      hother c' hc' hne ch' hch' x hx]
    rfl
  · intro g hg
    have hk : Known s₂ g := .inr hg
    have hmem := hg
    rw [NetworkState.setChan_nicks, w.nicks, List.mem_filter] at hmem
    obtain ⟨n, hn, hstays⟩ := (Option.any_eq_true _ _).mp hmem.2
    by_cases hmo : MemberOf s c g
    · obtain ⟨ch', hch', x, hx, cn, hcn, rfl⟩ := hmo
      obtain rfl := Option.some.inj (hch.symm.trans hch')
      obtain ⟨cn', gn, hl, -⟩ := h.graph.link_of_chan hc hch hx
      obtain rfl := Option.some.inj (hcn.symm.trans hl.memb)
      obtain rfl := Option.some.inj (hl.nick.symm.trans hn)
      have hloses : lessMembs (withMembs (fun _ => false) ch.nicks) gn.channelNicks ≠
          gn.channelNicks := by
        intro e
        have hin := (mem_lessMembs.mp (e.symm ▸ hl.in_nick)).2
        simp [withMembs, hx] at hin
      refine .inr ⟨_, w.nick _ hk _ hn, ?_⟩
      exact (of_decide_eq_true hstays).imp_right fun e => e.resolve_right hloses
    · exact .inl ⟨hmem.1, hmo⟩

/-- A later 353 line goes on with the listing. -/
theorem Listing.restartNames (h : Listing m s c names t) {ch : ChannelState}
    (hch : t.chanHeap c = some ch) (mode : Option Byte) :
    ∃ t', Ctrlproxy.restartNames (t.setChan c { ch with mode := mode }) c = .ok t' ∧
      Listing m s c names t' := by
  obtain ⟨ch₀, ch', hch₀, hch', hname, hstarted, -⟩ := h.listed
  obtain rfl := Option.some.inj (hch.symm.trans hch')
  refine ⟨t.setChan c { ch with mode := mode }, ?_, h.setChan hch rfl rfl rfl rfl hstarted⟩
  have hset : (t.setChan c { ch with mode := mode }).chanHeap c = some { ch with mode := mode } :=
    Heap.set_same _ _ _
  rw [Ctrlproxy.restartNames, NetworkState.chan_eq hset, ok_bind, if_pos hstarted]
  rfl

/-- The lines of a listing after its first. -/
theorem Listing.lines (hs : Named m s) (hc : c ∈ s.channels) {is : List Input}
    (his : ∀ i ∈ is, NamesLine s c i.2)
    (hnames : ∀ i ∈ is, ∀ name ∈ listedNames i.2, Listable s.info name)
    (h : Listing m s c names t) :
    (∃ t', is.foldlM stateStep t = .ok t' ∧ Listing m s c
      ((is.flatMap fun i => listedNames i.2).foldl (addFirst m s.info) names) t') ∨
    (∃ y ∈ (is.flatMap fun i => listedNames i.2).foldl (addFirst m s.info) names,
      ¬ ModeFits s.info y) ∧ ∃ e, is.foldlM stateStep t = .error e := by
  induction is generalizing t names with
  | nil => exact .inl ⟨t, rfl, h⟩
  | cons i is ih =>
      obtain ⟨now, l⟩ := i
      obtain ⟨hk, chan, hchan, hfind⟩ := his _ List.mem_cons_self
      have hl : NamesLine t c l := ⟨hk, chan, hchan, (h.findChannel hs chan).trans hfind⟩
      obtain ⟨-, ch, -, hch, -⟩ := h.listed
      obtain ⟨mode, heval⟩ := handleNamreply_eq hl now hch
      obtain ⟨t₁, ht₁, h₁⟩ := h.restartNames hch mode
      rw [List.foldlM_cons, heval, ht₁, ok_bind, List.flatMap_cons, List.foldl_append]
      rcases h₁.addNames hc (hnames _ List.mem_cons_self) with ⟨t', ht', h'⟩ | ⟨⟨y, hy, hfit⟩, e, he⟩
      · rw [ht']
        exact ih (fun i hi => his i (List.mem_cons_of_mem _ hi))
          (fun i hi => hnames i (List.mem_cons_of_mem _ hi)) h'
      · refine .inr ⟨⟨y, subset_foldl_addFirst hy, hfit⟩, e, ?_⟩
        rw [he]
        rfl

/-! ### The whole refresh -/

/-- What a refresh of the members of `c` leaves of `s` when it has listed `names`. -/
structure Refreshed (m : Casemapping) (s : NetworkState) (c : Ref) (names : List Str)
    (s' : NetworkState) : Prop where
  /-- The members are the names without repetitions, each with the mode of its first prefix. -/
  members : ∃ ch, s'.chanHeap c = some ch ∧ ch.namreplyStarted = false ∧
    List.Forall₂ (IsListed m s') ch.nicks (firstOccurrences m s.info names)
  channels : s'.channels = s.channels
  others : ∀ c' ∈ s.channels, c' ≠ c → s'.chanHeap c' = s.chanHeap c' ∧
    ∀ ch, s.chanHeap c' = some ch → ∀ x ∈ ch.nicks, s'.membHeap x = s.membHeap x
  /-- A nick that was on the channel and is on none now has a query. -/
  gone : ∀ g ∈ s'.nicks, (g ∈ s.nicks ∧ ¬ MemberOf s c g) ∨
    ∃ n, s'.nickHeap g = some n ∧ (n.query = true ∨ n.channelNicks ≠ [])

/-- The 366 line ends the listing. -/
theorem Listing.ends (h : Listing m s c names t) (hs : Named m s) {l : IrcLine}
    (hl : EndNamesLine s c l) (now : Long) : ∃ s' ch, stateStep t (now, l) = .ok s' ∧
      s'.chanHeap c = some ch ∧ ch.namreplyStarted = false ∧
      List.Forall₂ (IsListed m s') ch.nicks names ∧ s'.channels = s.channels ∧
      (∀ c' ∈ s.channels, c' ≠ c → s'.chanHeap c' = t.chanHeap c') ∧
      s'.membHeap = t.membHeap ∧ s'.nicks = t.nicks ∧ s'.nickHeap = t.nickHeap := by
  obtain ⟨hk, chan, hchan, hfind⟩ := hl
  obtain ⟨-, ch, -, hch, -, -, hlist⟩ := h.listed
  have hfind' := (h.findChannel hs chan).trans hfind
  refine ⟨t.setChan c { ch with namreplyStarted := false }, _, ?_, Heap.set_same _ _ _, rfl, hlist,
    h.channels, fun c' _ hne => Heap.set_other hne, rfl, rfl, rfl⟩
  rw [stateStep_handler hk]
  change handleEndNames t l = _
  simp only [handleEndNames, IrcLine.argStr_eq hchan, ok_bind, hfind', NetworkState.modifyChan,
    NetworkState.chan_eq hch, pure_eq_ok]

/-- **A NAMES refresh**: the members of the channel are the names listed, unless a name is added
with a prefix that stands for the mode `0xFF`. -/
theorem namesRefresh_iff (hs : Named m s) {ch : ChannelState} (hc : c ∈ s.channels)
    (hch : s.chanHeap c = some ch) (hstart : ch.namreplyStarted = false) {is : List Input}
    (hne : is ≠ []) (his : ∀ i ∈ is, NamesLine s c i.2)
    (hnames : ∀ i ∈ is, ∀ name ∈ listedNames i.2, Listable s.info name) {e : Input}
    (he : EndNamesLine s c e.2) :
    (∃ s', (is ++ [e]).foldlM stateStep s = .ok s' ∧
      Refreshed m s c (is.flatMap fun i => listedNames i.2) s') ↔
    ∀ name ∈ firstOccurrences m s.info (is.flatMap fun i => listedNames i.2),
      ModeFits s.info name := by
  obtain ⟨i, is, rfl⟩ := List.exists_cons_of_ne_nil hne
  obtain ⟨now, l⟩ := i
  obtain ⟨mode, heval⟩ := handleNamreply_eq (his _ List.mem_cons_self) now hch
  obtain ⟨t₁, ht₁, h₁⟩ := restartNames_begins hs hc hch hstart mode
  have run : (∃ t', ((now, l) :: is).foldlM stateStep s = .ok t' ∧ Listing m s c
      (firstOccurrences m s.info (((now, l) :: is).flatMap fun i => listedNames i.2)) t') ∨
      (∃ y ∈ firstOccurrences m s.info (((now, l) :: is).flatMap fun i => listedNames i.2),
        ¬ ModeFits s.info y) ∧ ∃ e, ((now, l) :: is).foldlM stateStep s = .error e := by
    rw [List.foldlM_cons, heval, ht₁, ok_bind, firstOccurrences, List.flatMap_cons,
      List.foldl_append]
    rcases h₁.addNames hc (hnames _ List.mem_cons_self) with ⟨t', ht', h'⟩ | ⟨⟨y, hy, hfit⟩, e, he⟩
    · rw [ht']
      exact h'.lines hs hc (fun i hi => his i (List.mem_cons_of_mem _ hi))
        fun i hi => hnames i (List.mem_cons_of_mem _ hi)
    · refine .inr ⟨⟨y, subset_foldl_addFirst hy, hfit⟩, e, ?_⟩
      rw [he]
      rfl
  rw [List.foldlM_append]
  rcases run with ⟨t, ht, h⟩ | ⟨⟨y, hy, hfit⟩, e', herr⟩
  · refine iff_of_true ?_ h.fits
    obtain ⟨s', ch', hs', hch', hended, hlist, hcs, hchans, hmembs, hnicks, hheap⟩ :=
      h.ends hs he e.1
    refine ⟨s', by simp only [ht, ok_bind, List.foldlM_cons, hs', List.foldlM_nil]; rfl,
      ⟨ch', hch', hended, hlist⟩, hcs, fun c' hc' hne => ?_, ?_⟩
    · obtain ⟨hchan, hx⟩ := h.others c' hc' hne
      exact ⟨(hchans c' hc' hne).trans hchan, hmembs ▸ hx⟩
    · rw [hnicks, hheap]
      exact h.kept
  · refine iff_of_false ?_ fun hall => hfit (hall y hy)
    rintro ⟨s', hs', -⟩
    rw [herr] at hs'
    cases hs'

end

/-- A listing of the channel of two members. -/
def namesOfC (names : String) : Input :=
  (long0, ⟨some (str "srv"), [str "353", str "me", str "=", str "#c", str names], .withColon⟩)

def endOfC : Input :=
  (long0, ⟨some (str "srv"), [str "366", str "me", str "#c", str "End"], .withColon⟩)

/-- The lines of a listing, in a state after the two joined. -/
theorem namesOfC_lines {s : NetworkState} (hc : findChannel s (str "#c") = .ok (some 1))
    (names : String) : NamesLine s 1 (namesOfC names).2 ∧ EndNamesLine s 1 endOfC.2 :=
  ⟨⟨rfl, str "#c", rfl, hc⟩, ⟨rfl, str "#c", rfl, hc⟩⟩

theorem namesRefresh_iff_two : ∃ s s', twoJoined = .ok s ∧
    [namesOfC "@me jim", namesOfC "+JIM al", endOfC].foldlM stateStep s = .ok s' ∧
    Refreshed .unknown s 1 [str "@me", str "jim", str "+JIM", str "al"] s' := by
  have run : twoJoined.map (fun s => decide (1 ∈ s.channels ∧
      (s.chanHeap 1).any (fun ch => !ch.namreplyStarted) = true ∧
      findChannel s (str "#c") = .ok (some 1) ∧
      (∀ name ∈ [str "@me", str "jim", str "+JIM", str "al"],
        stripPrefix (some s.info) name ≠ [] ∧
        isPrefix (stripPrefix (some s.info) name).head? (some s.info) = false ∧
        (nameMode s.info name).all (fun b => decide (b.1 < MAXMODES)) = true))) = .ok true := by
    decide +kernel
  obtain ⟨s, hs, hr⟩ := map_eq_ok run
  obtain ⟨hc, hch, hfind, hnames⟩ := of_decide_eq_true hr
  obtain ⟨ch, hch, hstart⟩ := (Option.any_eq_true _ _).mp hch
  have hlisted : ([namesOfC "@me jim", namesOfC "+JIM al"].flatMap fun i => listedNames i.2) =
      [str "@me", str "jim", str "+JIM", str "al"] := by decide +kernel
  have hlines : ∀ i ∈ [namesOfC "@me jim", namesOfC "+JIM al"], NamesLine s 1 i.2 := by
    intro i hi
    rcases List.mem_pair.mp hi with rfl | rfl
    · exact (namesOfC_lines hfind _).1
    · exact (namesOfC_lines hfind _).1
  have hmem : ∀ i ∈ [namesOfC "@me jim", namesOfC "+JIM al"], ∀ name ∈ listedNames i.2,
      name ∈ [str "@me", str "jim", str "+JIM", str "al"] := by
    intro i hi name hname
    rw [← hlisted]
    exact List.mem_flatMap.mpr ⟨i, hi, hname⟩
  have hrefresh := (namesRefresh_iff (twoJoined_named hs) hc hch (by simpa using hstart)
    (List.cons_ne_nil _ _) hlines (fun i hi name hname =>
      ⟨(hnames name (hmem i hi name hname)).1, (hnames name (hmem i hi name hname)).2.1⟩)
    (namesOfC_lines hfind "").2).mpr ?_
  · obtain ⟨s', hs', hr'⟩ := hrefresh
    rw [hlisted] at hr'
    exact ⟨s, s', hs, hs', hr'⟩
  · intro name hname b hb
    rw [hlisted] at hname
    have hfit := (hnames name (foldl_addFirst_subset hname)).2.2
    rw [hb] at hfit
    exact of_decide_eq_true hfit

/-- A prefix that stands for the mode `0xFF` writes behind the table of the member's modes. -/
theorem names_leave_mode_table : ¬ ∀ (m : Casemapping) (s : NetworkState) (c : Ref)
    (ch : ChannelState) (is : List Input) (e : Input), Named m s → c ∈ s.channels →
    s.chanHeap c = some ch → ch.namreplyStarted = false → is ≠ [] →
    (∀ i ∈ is, NamesLine s c i.2) →
    (∀ i ∈ is, ∀ name ∈ listedNames i.2, Listable s.info name) → EndNamesLine s c e.2 →
    ∃ s', (is ++ [e]).foldlM stateStep s = .ok s' ∧
      Refreshed m s c (is.flatMap fun i => listedNames i.2) s' := by
  intro claim
  let i : NetworkInfo := { networkInfoInit with prefixes := [chr '(', byteFF] ++ str ")@" }
  have run : twoJoined.map (fun s => decide (1 ∈ s.channels ∧
      s.info.casemapping = .unknown ∧
      (s.chanHeap 1).any (fun ch => !ch.namreplyStarted) = true ∧
      findChannel { s with info := i } (str "#c") = .ok (some 1) ∧
      ([namesOfC "@jim", endOfC].foldlM stateStep { s with info := i }).toOption.isNone = true)) =
      .ok true := by
    decide +kernel
  obtain ⟨s, hs, hr⟩ := map_eq_ok run
  obtain ⟨hc, hmap, hch, hfind, herr⟩ := of_decide_eq_true hr
  obtain ⟨ch, hch, hstart⟩ := (Option.any_eq_true _ _).mp hch
  have hnames : ∀ j ∈ [namesOfC "@jim"], ∀ name ∈ listedNames j.2, Listable i name := by
    intro j hj name hname
    rw [List.mem_singleton.mp hj] at hname
    have hlisted : listedNames (namesOfC "@jim").2 = [str "@jim"] := by decide +kernel
    rw [hlisted] at hname
    rw [List.mem_singleton.mp hname]
    exact ⟨by decide +kernel, by decide +kernel⟩
  obtain ⟨s', hs', -⟩ := claim .unknown { s with info := i } 1 ch [namesOfC "@jim"] endOfC
    ((twoJoined_named hs).announce hmap.symm) hc hch (by simpa using hstart) (List.cons_ne_nil _ _)
    (fun j hj => List.mem_singleton.mp hj ▸ (namesOfC_lines hfind _).1) hnames
    (namesOfC_lines hfind "").2
  rw [List.singleton_append] at hs'
  rw [hs'] at herr
  cases herr

end Ctrlproxy
