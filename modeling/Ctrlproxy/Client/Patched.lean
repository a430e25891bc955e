import Ctrlproxy.Client.Misnamed

/-!
# Client — what a difference carries over

A patched copy of the old state agrees with the new one (`Patched`) if each new channel is there with
its topic, its modes and its members, there are no others, and the nicks are the same.  Which pairs of
states are so patched is `Bridgeable`: nothing is asked of what `client_send_state_diff` does, only of the
two states.
-/

namespace Ctrlproxy
open Outcome

/-! ### Agreement -/

/-- The channel at `c` is that at `d` of the new state: it has its name up to case, its topic, its
modes and its members. -/
structure SameChannel (new O : NetworkState) (d c : Ref) : Prop where
  name : chanKey O c = chanKey new d
  topic : (O.chanHeap c).map (·.topic) = (new.chanHeap d).map (·.topic)
  modes : (O.chanHeap c).map (·.modes) = (new.chanHeap d).map (·.modes)
  members : ∀ a, (∃ g, OnChan O c g ∧ nameOf O g = some a) ↔
    ∃ g, OnChan new d g ∧ nameOf new g = some a

/-- The state has the channels of the new one, found by their names, no others, and its nicks. -/
structure Patched (new O : NetworkState) : Prop where
  found : ∀ d ∈ new.channels, ∀ ns, new.chanHeap d = some ns →
    ∃ c, findChannel O ns.name = .ok (some c) ∧ SameChannel new O d c
  only : ∀ c ∈ O.channels, ∃ d ∈ new.channels, chanKey O c = chanKey new d
  nicks : ∀ k, (∃ g ∈ O.nicks, keyOf O g = some k) ↔ ∃ g ∈ new.nicks, keyOf new g = some k

/-- The two states have a channel of the same name at `c` and `d`. -/
def Common (old new : NetworkState) (c d : Ref) : Prop :=
  c ∈ old.channels ∧ d ∈ new.channels ∧ chanKey old c = chanKey new d

/-- The difference carries over all that is new: no channel is new, members have the hostmasks they
had, another topic is one that someone set, other modes are flags that are added in somebody's name,
and the nicks on no channel are those that stay by themselves.  And what is the same has no
channels. -/
structure Bridgeable (origin : Option Str) (old new : NetworkState) : Prop where
  silent : old = new → old.channels = []
  channels : ∀ d ∈ new.channels, ∃ c, Common old new c d
  hosts : ∀ c d, Common old new c d → ∀ g g', OnChan old c g → OnChan new d g' →
    keyOf old g = keyOf new g' → maskKey old g = maskKey new g'
  topics : ∀ c d, Common old new c d → ∀ os ns, old.chanHeap c = some os → new.chanHeap d = some ns →
    os.topic = ns.topic ∨ ns.topic ≠ none ∧ ns.topicSetBy ≠ none
  modes : ∀ c d, Common old new c d → ∀ os ns, old.chanHeap c = some os → new.chanHeap d = some ns →
    Addable os.modes ns.modes ∧ (os.modes = ns.modes ∨ origin ≠ none)
  unseen : ∀ g ∈ new.nicks, (∀ d ∈ new.channels, ¬ OnChan new d g) →
    ∃ g₀, Kept old g₀ ∧ keyOf old g₀ = keyOf new g
  left : ∀ g₀, Kept old g₀ → ∃ g ∈ new.nicks, keyOf new g = keyOf old g₀

section
variable {nick hm : Str} {old new O : NetworkState} {c d g g' : Ref} {os ns : ChannelState}
  {p : Ref → Prop} {origin : Option Str}

/-! ### A channel -/

/-- All members are there if the ones that are accepted are all. -/
theorem NamesAre.all_iff (hn : Patchable nick hm new) (hd : d ∈ new.channels)
    (h : NamesAre new O c d p) : (∀ a, (∃ g, OnChan O c g ∧ nameOf O g = some a) ↔
      ∃ g, OnChan new d g ∧ nameOf new g = some a) ↔ ∀ g', OnChan new d g' → p g' := by
  constructor
  · intro hsame g' hon
    obtain ⟨a, ha⟩ := hn.unique.named g' (hon.known hn.graph hd)
    obtain ⟨g₁, hon₁, hp, hg₁⟩ := (h a).mp ((hsame a).mpr ⟨g', hon, ha⟩)
    obtain rfl := hn.unique.key_inj (hon₁.known hn.graph hd) (hon.known hn.graph hd)
      (keyOf_congr (hg₁.trans ha.symm))
    exact hp
  · intro hp a
    rw [h a]
    exact exists_congr fun g' => and_congr_right fun hon => and_iff_right (hp g' hon)

/-- Who is met or not seen is everyone, if members that are called alike have the same hostmask. -/
theorem Pair.met_iff (hp : Pair nick hm old new c d os ns) :
    (∀ g', OnChan new d g' → Met old new c g' ∨ ¬ Seen old new c g') ↔
      ∀ g g', OnChan old c g → OnChan new d g' → keyOf old g = keyOf new g' →
        maskKey old g = maskKey new g' := by
  constructor
  · intro h g g' hon hon' e
    obtain ⟨g₁, hon₁, e₁⟩ := (h g' hon').resolve_right fun hnot => hnot ⟨g, hon, e⟩
    obtain rfl := hp.oldOk.unique.key_inj (hon₁.known hp.oldOk.graph hp.oldMem)
      (hon.known hp.oldOk.graph hp.oldMem) ((hp.key_of_mask hon₁ hon' e₁).trans e.symm)
    exact e₁
  · intro h g' hon'
    by_cases hs : Seen old new c g'
    · obtain ⟨g, hon, e⟩ := hs
      exact .inl ⟨g, hon, h g g' hon hon' e⟩
    · exact .inr hs

theorem Letters.nul {m : Modes} (h : Letters m) : m ⟨0, by decide⟩ = false :=
  Bool.eq_false_iff.mpr fun h0 => (h _ h0).1 rfl

/-- Modes that can be added are the same if there are none to set. -/
theorem Voiced.set (h : Voiced origin os ns) (hp : Pair nick hm old new c d os ns)
    (hadd : Addable os.modes ns.modes) : os.modes = ns.modes ∨ origin ≠ none := by
  rcases h with e | hnil | hne
  · exact .inl e
  · have h0 := (hp.newOk.channels d hp.newMem ns hp.newChan).2.2.2.nul
    have e := (modesAfter_eq_iff h0).mpr hadd
    rw [hnil, modesAfter_nil] at e
    exact .inl e
  · exact .inr hne

/-- When what is carried over of a channel is all of it. -/
theorem Carried.same_iff (hp : Pair nick hm old new c d os ns) (hO : Copy nick hm old O)
    (hc : c ∈ O.channels) (h : Carried old new O c d) : SameChannel new O d c ↔
      (∀ g g', OnChan old c g → OnChan new d g' → keyOf old g = keyOf new g' →
        maskKey old g = maskKey new g') ∧
      (os.topic = ns.topic ∨ ns.topic ≠ none ∧ ns.topicSetBy ≠ none) ∧
      Addable os.modes ns.modes := by
  obtain ⟨os', ns', ch, hos, hns, hch, htopic, hmodes, hnames⟩ := h
  rw [hp.oldChan] at hos
  rw [hp.newChan] at hns
  cases hos
  cases hns
  rw [← hp.met_iff, ← hnames.all_iff hp.newOk hp.newMem, ← topicAfter_eq_iff,
    ← modesAfter_eq_iff (hp.newOk.channels d hp.newMem ns hp.newChan).2.2.2.nul, ← htopic, ← hmodes]
  constructor
  · intro hsame
    have ht := hsame.topic
    have hm' := hsame.modes
    rw [hch, hp.newChan, Option.map_some, Option.map_some, Option.some_inj] at ht hm'
    exact ⟨hsame.members, ht, hm'⟩
  · rintro ⟨hmembers, ht, hm'⟩
    refine ⟨?_, by rw [hch, hp.newChan, Option.map_some, Option.map_some, ht],
      by rw [hch, hp.newChan, Option.map_some, Option.map_some, hm'], hmembers⟩
    rw [hO.chanKey_eq hc, hp.chanKey, chanKey_eq hp.newChan]

/-! ### Nicks -/

/-- A nick is on a channel, or it stays by itself. -/
theorem Copy.onChan_or_kept (hO : Copy nick hm old O) (hg : g ∈ O.nicks) :
    (∃ c ∈ O.channels, OnChan O c g) ∨ Kept old g := by
  obtain ⟨n, hn, -⟩ := hO.graph.nick_live g (.inr hg)
  cases hl : n.channelNicks with
  | nil => exact .inr (hO.listed g ⟨hg, n, hn, .inr hl⟩)
  | cons m ms =>
      obtain ⟨cn, hcn, e, hc, hback⟩ :=
        hO.graph.to_chan g (.inr hg) n hn m (hl ▸ List.mem_cons_self)
      obtain ⟨ch, hch, -⟩ := hO.graph.chan_live _ hc
      exact .inl ⟨_, hc, ch, m, cn, hch, hback ch hch, hcn, e⟩

/-- The nicks of a copy: the others on its channels, and those that stay by themselves. -/
theorem Copy.listed_iff (hO : Copy nick hm old O) (k : Str) :
    (∃ g ∈ O.nicks, keyOf O g = some k) ↔
      (∃ c ∈ O.channels, ∃ g, OnChan O c g ∧ keyOf O g = some k ∧ k ≠ Casemapping.unknown.fold nick) ∨
      ∃ g, Kept old g ∧ keyOf old g = some k := by
  have hme : keyOf O meRef = some (Casemapping.unknown.fold nick) := keyOf_eq hO.nameOf_me
  constructor
  · rintro ⟨g, hg, hk⟩
    rcases hO.onChan_or_kept hg with ⟨c, hc, hon⟩ | hkept
    · refine .inl ⟨c, hc, g, hon, hk, ?_⟩
      rintro rfl
      obtain rfl := hO.unique.key_inj (.inr hg) (.inl rfl) (hk.trans hme.symm)
      exact hO.graph.me_not_listed hg
    · exact .inr ⟨g, hkept, (hO.kept g hkept).2.symm.trans hk⟩
  · rintro (⟨c, hc, g, hon, hk, hne⟩ | ⟨g, hkept, hk⟩)
    · refine ⟨g, (hon.known hO.graph hc).resolve_left ?_, hk⟩
      rintro rfl
      exact hne (Option.some.inj (hk.symm.trans hme))
    · exact ⟨g, (hO.kept g hkept).1, (hO.kept g hkept).2.trans hk⟩

/-- Channels with the same members have members of the same names up to case. -/
theorem SameChannel.keys (h : SameChannel new O d c) (hn : Patchable nick hm new)
    (hO : Copy nick hm old O) (hc : c ∈ O.channels) (hd : d ∈ new.channels) (k : Str) :
    (∃ g, OnChan O c g ∧ keyOf O g = some k) ↔ ∃ g, OnChan new d g ∧ keyOf new g = some k := by
  constructor
  · rintro ⟨g, hon, hk⟩
    obtain ⟨a, ha⟩ := hO.unique.named g (hon.known hO.graph hc)
    obtain ⟨g', hon', hg'⟩ := (h.members a).mp ⟨g, hon, ha⟩
    exact ⟨g', hon', (keyOf_congr (hg'.trans ha.symm)).trans hk⟩
  · rintro ⟨g, hon, hk⟩
    obtain ⟨a, ha⟩ := hn.unique.named g (hon.known hn.graph hd)
    obtain ⟨g', hon', hg'⟩ := (h.members a).mpr ⟨g, hon, ha⟩
    exact ⟨g', hon', (keyOf_congr (hg'.trans ha.symm)).trans hk⟩

/-! ### All channels -/

/-- Two channels with the same name are a pair that the difference goes through. -/
theorem Common.pair {os ns : ChannelState} (hcd : Common old new c d) (ho : Patchable nick hm old)
    (hn : Patchable nick hm new) (hos : old.chanHeap c = some os) (hns : new.chanHeap d = some ns) :
    Pair nick hm old new c d os ns := by
  obtain ⟨hc, hd, e⟩ := hcd
  rw [chanKey_eq hos, chanKey_eq hns, Option.some_inj] at e
  exact ⟨ho, hn, hc, hd, hos, hns, e⟩

section
variable (h : Progress nick hm old new [] O)
include h

theorem Progress.settled (hc : c ∈ old.channels) : Settled old new c O :=
  h.done _ hc List.not_mem_nil

/-- At the end a channel of the copy is one of the new state. -/
theorem Progress.only (hc : c ∈ O.channels) : ∃ d, Common old new c d := by
  have hold := (h.copy.channels c hc).1
  by_contra hno
  exact (h.settled hold).gone (fun d hd e => hno ⟨d, hold, hd, e⟩) hc

/-- A channel of the new state is found in the copy. -/
theorem Progress.found (ho : Patchable nick hm old) {ns : ChannelState} (hcd : Common old new c d)
    (hns : new.chanHeap d = some ns) : findChannel O ns.name = .ok (some c) :=
  h.copy.findChannel ho.distinct ((h.settled hcd.1).both d hcd.2.1 hcd.2.2).1
    (hcd.2.2.trans (chanKey_eq hns))

/-- The channels agree exactly as `Bridgeable` says. -/
theorem Progress.same_iff (ho : Patchable nick hm old) (hn : Patchable nick hm new) :
    (∀ c d, Common old new c d → SameChannel new O d c) ↔
      (∀ c d, Common old new c d → ∀ g g', OnChan old c g → OnChan new d g' →
        keyOf old g = keyOf new g' → maskKey old g = maskKey new g') ∧
      (∀ c d, Common old new c d → ∀ os ns, old.chanHeap c = some os → new.chanHeap d = some ns →
        os.topic = ns.topic ∨ ns.topic ≠ none ∧ ns.topicSetBy ≠ none) ∧
      ∀ c d, Common old new c d → ∀ os ns, old.chanHeap c = some os → new.chanHeap d = some ns →
        Addable os.modes ns.modes := by
  have each : ∀ {c d os ns}, Common old new c d → old.chanHeap c = some os →
      new.chanHeap d = some ns → _ := fun {c d os ns} hcd hos hns =>
    ((h.settled hcd.1).both d hcd.2.1 hcd.2.2).2.same_iff (hcd.pair ho hn hos hns) h.copy
      ((h.settled hcd.1).both d hcd.2.1 hcd.2.2).1
  constructor
  · intro hsame
    refine ⟨fun c d hcd => ?_, fun c d hcd os ns hos hns => ((each hcd hos hns).mp (hsame c d hcd)).2.1,
      fun c d hcd os ns hos hns => ((each hcd hos hns).mp (hsame c d hcd)).2.2⟩
    obtain ⟨os, hos, -⟩ := ho.graph.chan_live c hcd.1
    obtain ⟨ns, hns, -⟩ := hn.graph.chan_live d hcd.2.1
    exact ((each hcd hos hns).mp (hsame c d hcd)).1
  · rintro ⟨hhosts, htopics, hmodes⟩ c d hcd
    obtain ⟨os, hos, -⟩ := ho.graph.chan_live c hcd.1
    obtain ⟨ns, hns, -⟩ := hn.graph.chan_live d hcd.2.1
    exact (each hcd hos hns).mpr ⟨hhosts c d hcd, htopics c d hcd os ns hos hns,
      hmodes c d hcd os ns hos hns⟩

/-- When the channels agree, so do the others on them. -/
theorem Progress.others (hn : Patchable nick hm new)
    (hall : ∀ d ∈ new.channels, ∃ c, Common old new c d)
    (hsame : ∀ c d, Common old new c d → SameChannel new O d c) (k : Str) :
    (∃ c ∈ O.channels, ∃ g, OnChan O c g ∧ keyOf O g = some k ∧ k ≠ Casemapping.unknown.fold nick) ↔
      ∃ d ∈ new.channels, ∃ g, OnChan new d g ∧ keyOf new g = some k ∧
        k ≠ Casemapping.unknown.fold nick := by
  constructor
  · rintro ⟨c, hc, g, hon, hk, hne⟩
    obtain ⟨d, hcd⟩ := h.only hc
    obtain ⟨g', hon', hk'⟩ := ((hsame c d hcd).keys hn h.copy hc hcd.2.1 k).mp ⟨g, hon, hk⟩
    exact ⟨d, hcd.2.1, g', hon', hk', hne⟩
  · rintro ⟨d, hd, g, hon, hk, hne⟩
    obtain ⟨c, hcd⟩ := hall d hd
    have hc := ((h.settled hcd.1).both d hd hcd.2.2).1
    obtain ⟨g', hon', hk'⟩ := ((hsame c d hcd).keys hn h.copy hc hd k).mpr ⟨g, hon, hk⟩
    exact ⟨c, hc, g', hon', hk', hne⟩

end

/-- What is left to be asked of states that have the same channels. -/
theorem Progress.patched_iff (ho : Patchable nick hm old) (hn : Patchable nick hm new)
    (hall : ∀ d ∈ new.channels, ∃ c, Common old new c d) (h : Progress nick hm old new [] O)
    (hheard : ∀ c ∈ old.channels, Heard nick hm origin old new c)
    (hsilent : old = new → old.channels = []) : Patched new O ↔ Bridgeable origin old new := by
  have listed := h.copy.listed_iff
  have listed' := hn.copy.listed_iff
  constructor
  · intro hP
    have hsame : ∀ c d, Common old new c d → SameChannel new O d c := by
      intro c d hcd
      obtain ⟨ns, hns, -⟩ := hn.graph.chan_live d hcd.2.1
      obtain ⟨c', hc', hs⟩ := hP.found d hcd.2.1 ns hns
      rw [h.found ho hcd hns] at hc'
      cases hc'
      exact hs
    obtain ⟨hhosts, htopics, hmodes⟩ := (h.same_iff ho hn).mp hsame
    refine ⟨hsilent, hall, hhosts, htopics, fun c d hcd os ns hos hns =>
      ⟨hmodes c d hcd os ns hos hns, (hheard c hcd.1 d os ns (hcd.pair ho hn hos hns)).set
        (hcd.pair ho hn hos hns) (hmodes c d hcd os ns hos hns)⟩, fun g hg hno => ?_, fun g₀ hk₀ => ?_⟩
    · obtain ⟨a, ha⟩ := hn.unique.named g (.inr hg)
      have hk := keyOf_eq ha
      rcases (listed _).mp ((hP.nicks _).mpr ⟨g, hg, hk⟩) with hon | ⟨g₀, hk₀, e⟩
      · obtain ⟨d, hd, g', hon', hk', -⟩ := (h.others hn hall hsame _).mp hon
        obtain rfl := hn.unique.key_inj (hon'.known hn.graph hd) (.inr hg) (hk'.trans hk.symm)
        exact absurd hon' (hno d hd)
      · exact ⟨g₀, hk₀, e.trans hk.symm⟩
    · obtain ⟨a, ha⟩ := ho.unique.named g₀ (.inr hk₀.1)
      have hk := keyOf_eq ha
      obtain ⟨g, hg, e⟩ := (hP.nicks _).mp ((listed _).mpr (.inr ⟨g₀, hk₀, hk⟩))
      exact ⟨g, hg, e.trans hk.symm⟩
  · intro hC
    have hsame := (h.same_iff ho hn).mpr ⟨hC.hosts, hC.topics, fun c d hcd os ns hos hns =>
      (hC.modes c d hcd os ns hos hns).1⟩
    refine ⟨fun d hd ns hns => ?_, fun c hc => ?_, fun k => ⟨fun hk => ?_, fun hk => ?_⟩⟩
    · obtain ⟨c, hcd⟩ := hall d hd
      exact ⟨c, h.found ho hcd hns, hsame c d hcd⟩
    · obtain ⟨d, hcd⟩ := h.only hc
      exact ⟨d, hcd.2.1, (h.copy.chanKey_eq hc).trans hcd.2.2⟩
    · rcases (listed k).mp hk with hon | ⟨g₀, hk₀, e⟩
      · exact (listed' k).mpr (.inl ((h.others hn hall hsame k).mp hon))
      · obtain ⟨g, hg, e'⟩ := hC.left g₀ hk₀
        exact ⟨g, hg, e'.trans e⟩
    · obtain ⟨g, hg, e⟩ := hk
      by_cases hon : ∃ d ∈ new.channels, OnChan new d g
      · obtain ⟨d, hd, hon⟩ := hon
        refine (listed k).mpr (.inl ((h.others hn hall hsame k).mpr ⟨d, hd, g, hon, e, ?_⟩))
        rintro rfl
        obtain rfl := hn.unique.key_inj (.inr hg) (.inl rfl)
          (e.trans (keyOf_eq hn.nameOf_me).symm)
        exact hn.graph.me_not_listed hg
      · obtain ⟨g₀, hk₀, e'⟩ := hC.unseen g hg fun d hd hon' => hon ⟨d, hd, hon'⟩
        exact (listed k).mpr (.inr ⟨g₀, hk₀, e'.trans e⟩)

end

/-! ### The whole difference -/

/-- `client_send_state_diff` patches the client's copy of the old state so that it agrees with the new
one, and sends nothing when there is no difference. -/
def Patches (now : Long) (origin : Option Str) (old new : NetworkState) : Prop :=
  ∃ c O, clientSendStateDiff now (Client.quiet true origin old) old new = .ok (true, c) ∧
    patched old c.sent = .ok O ∧ Patched new O ∧ (old = new → c.sent = [])

section
variable {nick hm : Str} {old new O : NetworkState} {now : Long} {origin : Option Str} {cl : Client}

/-- The copy before anything is sent. -/
theorem Patchable.start (ho : Patchable nick hm old) (new : NetworkState) (origin : Option Str) :
    Following origin old 0 (Progress nick hm old new old.channels) (Client.quiet true origin old) := by
  refine ⟨rfl, rfl, Nat.zero_le _, old, rfl, rfl, ho.copy, fun c hc => ?_, fun c hc hno => absurd hc hno⟩
  exact ⟨hc, rfl, fun _ _ hm' _ => hm', fun _ _ => rfl⟩

/-- Nothing is sent for the channels of the new state that the old one has. -/
theorem sendNewChannels_nothing (ho : Patchable nick hm old) (hn : Patchable nick hm new)
    {ds : List Ref} (h : ∀ d ∈ ds, ∃ c, Common old new c d) :
    sendNewChannels now old new ds cl = .ok (true, cl) := by
  induction ds with
  | nil => rfl
  | cons d ds ih =>
      obtain ⟨c, hc, hd, e⟩ := h d List.mem_cons_self
      obtain ⟨ns, hns, -⟩ := hn.graph.chan_live d hd
      have hfind := findChannel_key ho.graph ho.info ho.distinct hc (e.trans (chanKey_eq hns))
      have hone : sendNewChannel now cl old new d = .ok (true, cl) := by
        rw [sendNewChannel, NetworkState.chan_eq hns, ok_bind, hfind]
        rfl
      rw [sendNewChannels, hone, ok_bind, andThen, if_pos rfl]
      exact ih fun d hd => h d (List.mem_cons_of_mem _ hd)

/-- A channel that only the new state has is told with a name that nobody has. -/
theorem sendNewChannels_broken (ho : Patchable nick hm old) (hn : Patchable nick hm new)
    {ds : List Ref} (hds : ∀ d ∈ ds, d ∈ new.channels)
    (hnew : ∃ d ∈ ds, ¬ ∃ c, Common old new c d) (h : Following origin old 0 Sound cl) :
    Ensures (sendNewChannels now old new ds cl) (fun r => r.1 = true ∧ Following origin old 0
      (fun O => ∃ d ∈ new.channels, ∃ ns, new.chanHeap d = some ns ∧ Broken ns.name O) r.2)
      (fun _ => True) := by
  induction ds generalizing cl with
  | nil =>
      obtain ⟨d, hd, -⟩ := hnew
      cases hd
  | cons d ds ih =>
      have hd := hds d List.mem_cons_self
      have hds' : ∀ d ∈ ds, d ∈ new.channels := fun d hd => hds d (List.mem_cons_of_mem _ hd)
      obtain ⟨ns, hns, -⟩ := hn.graph.chan_live d hd
      have hne : ns.nicks ≠ [] := List.ne_nil_of_length_pos (hn.nonempty hd hns)
      -- a channel of the new state that is told
      have told : Ensures (clientSendChannelState now cl new d) (fun r => r.1 = true ∧
          Following origin old 0 (fun O => Sound O ∧ Broken ns.name O) r.2) (fun _ => True) :=
        clientSendChannelState_broken hns hne h
      have missing : (¬ ∃ c, Common old new c d) →
          sendNewChannel now cl old new d = clientSendChannelState now cl new d := by
        intro hno
        rw [sendNewChannel, NetworkState.chan_eq hns, ok_bind, findChannel_noKey ho.graph ho.info
          fun c hc e => hno ⟨c, hc, hd, e.trans (chanKey_eq hns).symm⟩]
        rfl
      rw [sendNewChannels]
      by_cases hlater : ∃ d ∈ ds, ¬ ∃ c, Common old new c d
      · refine andThen_bind (P := Following origin old 0 Sound) ?_ fun cl' h' => ih hds' hlater h'
        by_cases hcd : ∃ c, Common old new c d
        · obtain ⟨c, hc, -, e⟩ := hcd
          rw [sendNewChannel, NetworkState.chan_eq hns, ok_bind,
            findChannel_key ho.graph ho.info ho.distinct hc (e.trans (chanKey_eq hns))]
          exact ⟨rfl, h⟩
        · rw [missing hcd]
          exact told.imp fun r hr => ⟨hr.1, hr.2.imp le_rfl fun _ hO => hO.1⟩
      · -- the last one: nothing is sent behind it
        have hlater' : ∀ d ∈ ds, ∃ c, Common old new c d :=
          fun d hd => not_not.mp fun hno => hlater ⟨d, hd, hno⟩
        have hcd : ¬ ∃ c, Common old new c d := by
          obtain ⟨d', hd', hno⟩ := hnew
          rcases List.mem_cons.mp hd' with rfl | hd'
          · exact hno
          · exact absurd (hlater' d' hd') hno
        rw [missing hcd]
        refine andThen_bind told fun cl' h' => ?_
        rw [sendNewChannels_nothing ho hn hlater']
        exact ⟨rfl, h'.imp le_rfl fun O hO => ⟨d, hd, ns, hns, hO.2⟩⟩

/-- A channel of a well-formed state has no member with a colon in front of the name. -/
theorem Patched.not_broken (hn : Patchable nick hm new) (h : Patched new O) :
    ¬ ∃ d ∈ new.channels, ∃ ns, new.chanHeap d = some ns ∧ Broken ns.name O := by
  rintro ⟨d, hd, ns, hns, hbroken⟩
  obtain ⟨c, hfind, hsame⟩ := h.found d hd ns hns
  obtain ⟨g, a, hon, ha⟩ := hbroken c hfind
  obtain ⟨g', hon', ha'⟩ := (hsame.members _).mp ⟨g, hon, ha⟩
  exact (hn.names g' _ (hon'.known hn.graph hd) ha').bare.2 rfl

theorem Bridgeable.heard (h : Bridgeable origin old new) :
    ∀ c ∈ old.channels, Heard nick hm origin old new c := by
  intro c hc d os ns hp
  exact (h.modes c d ⟨hc, hp.newMem, hp.key⟩ os ns hp.oldChan hp.newChan).2.imp_right .inr

/-- **What `client_send_state_diff` is good for.**  It patches a copy of the old state so that it
agrees with the new one exactly for the pairs of states whose difference it carries over. -/
theorem clientSendStateDiff_patches (now : Long) (origin : Option Str) {nick hm : Str}
    {old new : NetworkState} (ho : Patchable nick hm old) (hn : Patchable nick hm new) :
    Patches now origin old new ↔ Bridgeable origin old new := by
  have first : Ensures (sendOldChannels now old new old.channels (Client.quiet true origin old))
      (fun r => r.1 = true ∧ Following origin old (0 + old.channels.length)
        (Progress nick hm old new []) r.2 ∧ ∀ c ∈ old.channels, Heard nick hm origin old new c)
      (fun _ => ¬ ∀ c ∈ old.channels, Heard nick hm origin old new c) :=
    sendOldChannels_progress ho hn (fun _ hc => hc) ho.graph.channels_nodup (ho.start new origin)
  constructor
  · rintro ⟨c, O, hsend, hpatch, hP, hsilent⟩
    obtain ⟨⟨ret, cl⟩, hx, hrest⟩ := bind_eq_ok hsend
    obtain ⟨hret, hfollow, hheard⟩ := first.of_ok hx
    rw [andThen, if_pos hret] at hrest
    by_cases hall : ∀ d ∈ new.channels, ∃ c, Common old new c d
    · rw [sendNewChannels_nothing ho hn hall] at hrest
      cases hrest
      obtain ⟨O', -, hpatch', hprogress⟩ := hfollow.state
      rw [hpatch] at hpatch'
      cases hpatch'
      refine (hprogress.patched_iff ho hn hall hheard fun e => ?_).mp hP
      have hsent := hfollow.sent
      rw [hsilent e, Nat.zero_add] at hsent
      exact List.length_eq_zero_iff.mp (Nat.le_zero.mp hsent)
    · exfalso
      obtain ⟨d, hd⟩ := not_forall.mp hall
      obtain ⟨hd, hno⟩ := Classical.not_imp.mp hd
      have hsound : Following origin old 0 Sound cl :=
        hfollow.imp (Nat.zero_le _) fun O hO => ⟨hO.copy.graph, hO.copy.info⟩
      obtain ⟨-, hlast⟩ := (sendNewChannels_broken ho hn (fun _ hd => hd) ⟨d, hd, hno⟩ hsound).of_ok hrest
      obtain ⟨O', -, hpatch', hbroken⟩ := hlast.state
      rw [hpatch] at hpatch'
      cases hpatch'
      exact hP.not_broken hn hbroken
  · intro hC
    obtain ⟨⟨ret, cl⟩, hx, hret, hfollow, hheard⟩ :=
      (first.mono (fun _ hr => hr) fun _ he => he hC.heard).exists_ok
    obtain ⟨O, -, hpatch, hprogress⟩ := hfollow.state
    refine ⟨cl, O, ?_, hpatch, (hprogress.patched_iff ho hn hC.channels hheard hC.silent).mpr hC,
      fun e => ?_⟩
    · rw [clientSendStateDiff, hx, ok_bind, andThen, if_pos hret,
        sendNewChannels_nothing ho hn hC.channels]
    · rw [hC.silent e] at hx
      cases hx
      rfl

end

/-! ### A user alone on a channel -/

/-- A state with no nick but the user's, and at most one channel. -/
theorem Patchable.alone {nick₀ username hostname nick hm name : Str} {s : NetworkState}
    (hr : Reach stateStep (fun _ _ => True) (networkStateInit nick₀ username hostname) s)
    (hinfo : s.info = networkInfoInit) (hn : s.nicks = [])
    (hid : identityOf s = some (some nick, some hm)) (hspell : NickSpelled nick)
    (hfront : upToBang hm = nick) (hbang : chr '!' ∈ hm) {c m : Ref} (hcs : s.channels ⊆ [c])
    (hch : c ∈ s.channels → ∃ ch cn, s.chanHeap c = some ch ∧ ch.name = name ∧ ch.nicks = [m] ∧
      ch.modes = modesClear ∧ s.membHeap m = some cn ∧ cn.globalNick = meRef)
    (hname : name ≠ [] ∧ chr ',' ∉ name ∧ isChannelname name networkInfoInit = .ok true) :
    Patchable nick hm s := by
  obtain ⟨hgraph, hmasks⟩ := reachable_hostmaskNicks hr
  obtain ⟨me, hme, e⟩ := Option.map_eq_some_iff.mp hid
  obtain ⟨hnick, hmask⟩ := Prod.mk.inj e
  have only : ∀ {g}, Known s g → g = meRef := by
    rintro g (rfl | hg)
    · rfl
    · rw [hn] at hg
      cases hg
  have at_c : ∀ {x}, x ∈ s.channels → x = c := fun hx => List.mem_singleton.mp (hcs hx)
  refine ⟨hgraph, hinfo, ⟨fun g hk => ?_, fun g g' _ _ hk hk' _ _ _ => (only hk).trans (only hk').symm,
    fun x hx ch' hch' y hy z hz _ _ _ _ _ => ?_⟩, hid, hmasks, fun g a hk ha => ?_, hfront,
    fun x hx g hon => ?_, fun x hx y hy _ => (at_c hx).trans (at_c hy).symm, fun x hx ch' hch' => ?_,
    fun x hx => ?_⟩
  · exact only hk ▸ ⟨nick, (nameOf_eq hme).trans hnick⟩
  · obtain rfl := at_c hx
    obtain ⟨ch, cn, hch, -, hnicks, -⟩ := hch hx
    obtain rfl := Option.some.inj (hch.symm.trans hch')
    rw [hnicks] at hy hz
    rw [List.mem_singleton.mp hy, List.mem_singleton.mp hz]
  · rw [only hk, nameOf_eq hme, hnick] at ha
    cases ha
    exact hspell
  · rw [only (hon.known hgraph hx)]
    exact ⟨me, hm, hme, hmask, hbang⟩
  · obtain rfl := at_c hx
    obtain ⟨ch, cn, hch₀, rfl, -, hmodes, -⟩ := hch hx
    obtain rfl := Option.some.inj (hch₀.symm.trans hch')
    refine ⟨hname.1, hname.2.1, hname.2.2, fun i hi => ?_⟩
    rw [hmodes] at hi
    cases hi
  · obtain rfl := at_c hx
    obtain ⟨ch, cn, hch, -, hnicks, -, hcn, hglobal⟩ := hch hx
    exact ⟨ch, m, cn, hch, by simp [hnicks], hcn, hglobal⟩

theorem freshUser_patchable : Patchable (str "me") (str "me!u@h") freshUser := by
  have spelled : str "#c" ≠ [] ∧ chr ',' ∉ str "#c" ∧
      isChannelname (str "#c") networkInfoInit = .ok true := ⟨by decide, by decide, rfl⟩
  refine Patchable.alone (c := 0) (m := 0) .refl rfl rfl rfl me_spelled (by decide) (by decide)
    (by simp [freshUser, networkStateInit]) (fun hc => ?_) spelled
  cases hc

/-- The user is on a channel. -/
theorem freshUser_joined : ∃ S c, stateStep freshUser (inputOf ":me!u@h JOIN #c") = .ok S ∧
    S.nicks = [] ∧ S.channels = [c] ∧ Patchable (str "me") (str "me!u@h") S := by
  let joins : Input := inputOf ":me!u@h JOIN #c"
  have lists : (stateStep freshUser joins).map (fun S => (S.nicks, S.channels)) = .ok ([], [1]) := by
    decide +kernel
  have user : (stateStep freshUser joins).map identityOf =
      .ok (some (some (str "me"), some (str "me!u@h"))) := by decide +kernel
  have channel : (stateStep freshUser joins).map (fun S => (S.chanHeap 1).map fun ch =>
      (ch.name, ch.nicks, sameModes ch.modes modesClear)) = .ok (some (str "#c", [2], true)) := by
    decide +kernel
  have member : (stateStep freshUser joins).map (fun S => (S.membHeap 2).map (·.globalNick)) =
      .ok (some meRef) := by decide +kernel
  have join : commandOf (inputOf ":me!u@h JOIN #c").2 = some .join := by decide +kernel
  obtain ⟨S, hS, hlists⟩ := map_eq_ok lists
  rw [hS] at user channel member
  obtain ⟨hn, hcs⟩ := Prod.mk.inj hlists
  obtain ⟨ch, hch, e⟩ := Option.map_eq_some_iff.mp (Except.ok.inj channel)
  obtain ⟨cn, hcn, hglobal⟩ := Option.map_eq_some_iff.mp (Except.ok.inj member)
  obtain ⟨hname, e⟩ := Prod.mk.inj e
  obtain ⟨hnicks, hmodes⟩ := Prod.mk.inj e
  refine ⟨S, 1, hS, hn, hcs, ?_⟩
  refine Patchable.alone (.step .refl trivial hS)
    (freshUser_info (by rw [join]; nofun) (by rw [join]; nofun) hS) hn (Except.ok.inj user) me_spelled
    (by decide) (by decide) (by simp [hcs]) (fun _ => ⟨ch, cn, hch, hname, hnicks,
      sameModes_iff.mp hmodes, hcn, hglobal⟩) ⟨by decide, by decide, rfl⟩

/-- The user leaves the only channel. -/
theorem clientSendStateDiff_patches_leave : ∃ old c, old.channels = [c] ∧
    Patches long0 none old freshUser := by
  obtain ⟨S, c, hS, hn, hcs, hp⟩ := freshUser_joined
  refine ⟨S, c, hcs, (clientSendStateDiff_patches long0 none hp freshUser_patchable).mpr ?_⟩
  have none_common : ∀ {c d}, ¬ Common S freshUser c d := by
    rintro c d ⟨-, hd, -⟩
    cases hd
  refine ⟨fun e => ?_, fun d hd => ?_, fun c d h => absurd h none_common,
    fun c d h => absurd h none_common, fun c d h => absurd h none_common, fun g hg => ?_,
    fun g hk => ?_⟩
  · rw [e] at hcs
    cases hcs
  · cases hd
  · cases hg
  · have hg := hk.1
    rw [hn] at hg
    cases hg

/-- Of a state that is the same NICK lines are sent. -/
theorem same_state_is_told : ¬ ∀ (now : Long) (origin : Option Str) (nick hm : Str)
    (old new : NetworkState), Patchable nick hm old → Patchable nick hm new →
      Patches now origin old new := by
  intro claim
  have lines : (stateStep freshUser (inputOf ":me!u@h JOIN #c") >>= fun S =>
      clientSendStateDiff long0 (Client.quiet true none S) S S).map (·.2.sent.length) = .ok 1 := by
    decide +kernel
  obtain ⟨S, c, hS, -, -, hp⟩ := freshUser_joined
  rw [hS, ok_bind] at lines
  obtain ⟨c, O, hsend, -, -, hsilent⟩ := claim long0 none _ _ S S hp hp
  rw [hsend] at lines
  have hlen : c.sent.length = 1 := Except.ok.inj lines
  rw [hsilent rfl] at hlen
  cases hlen

end Ctrlproxy
