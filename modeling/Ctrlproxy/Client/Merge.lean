import Ctrlproxy.Client.Difference

/-!
# Client — the difference, channel by channel

Of the members of the new channel those enter whose nick the old one lacks.  So a channel of both
states ends up with the members of the new one that the old one has under the same hostmask (`Met`)
or does not know by nick (not `Seen`).  It gets the new topic if there is one and someone set it, and
the flags of the new one on top of its own modes.
-/

namespace Ctrlproxy
open Outcome

/-! ### Members enter -/

/-- The old channel has a member with the hostmask of this nick. -/
def Met (old new : NetworkState) (c g' : Ref) : Prop :=
  ∃ g, OnChan old c g ∧ maskKey old g = maskKey new g'

/-- The old channel has a member with the name of this nick. -/
def Seen (old new : NetworkState) (c g' : Ref) : Prop :=
  ∃ g, OnChan old c g ∧ keyOf old g = keyOf new g'

/-- The members of the channel at `c` are called like those of the new one that `p` accepts. -/
def NamesAre (new O : NetworkState) (c d : Ref) (p : Ref → Prop) : Prop :=
  ∀ a, (∃ g, OnChan O c g ∧ nameOf O g = some a) ↔
    ∃ g', OnChan new d g' ∧ p g' ∧ nameOf new g' = some a

/-- The channel at `c` while it is made the new one at `d`: it has this topic, these modes, and the
members of the new one that `p` accepts. -/
structure Merging (nick hm : Str) (old new O₀ : NetworkState) (c d : Ref) (t : Option Str) (m : Modes)
    (p : Ref → Prop) (O : NetworkState) : Prop where
  copy : Copy nick hm old O
  aside : Aside new c O₀ O
  listed : c ∈ O.channels
  chan : ∃ ch, O.chanHeap c = some ch ∧ ch.topic = t ∧ ch.modes = m
  names : NamesAre new O c d p

section
variable {nick hm : Str} {old new O₀ O : NetworkState} {c d g g' : Ref} {os ns : ChannelState}
  {now : Long} {t : Option Str} {md : Modes} {p p' : Ref → Prop}

theorem NamesAre.congr (h : NamesAre new O c d p) (hp : ∀ g', OnChan new d g' → (p g' ↔ p' g')) :
    NamesAre new O c d p' := by
  intro a
  rw [h a]
  exact exists_congr fun g' => and_congr_right fun hon => and_congr_left fun _ => hp g' hon

theorem Merging.congr (h : Merging nick hm old new O₀ c d t md p O)
    (hp : ∀ g', OnChan new d g' → (p g' ↔ p' g')) : Merging nick hm old new O₀ c d t md p' O :=
  ⟨h.copy, h.aside, h.listed, h.chan, h.names.congr hp⟩

theorem Patchable.maskKey_front (h : Patchable nick hm O) (hc : c ∈ O.channels) (hon : OnChan O c g) :
    ∃ w, maskKey O g = some (Casemapping.unknown.fold w) ∧
      keyOf O g = some (Casemapping.unknown.fold (upToBang w)) := by
  obtain ⟨n, w, hn, hw, -, hname, -⟩ := h.member hc hon
  refine ⟨w, ?_, keyOf_eq ((nameOf_eq hn).trans hname)⟩
  rw [maskKey, hn, Option.bind_some, hw, Option.map_some]

theorem Pair.key (hp : Pair nick hm old new c d os ns) :
    Ctrlproxy.chanKey old c = Ctrlproxy.chanKey new d := by
  rw [hp.chanKey, chanKey_eq hp.newChan]

/-- Members with the same hostmask have the same name. -/
theorem Pair.key_of_mask (hp : Pair nick hm old new c d os ns) (hon : OnChan old c g)
    (hon' : OnChan new d g') (e : maskKey old g = maskKey new g') : keyOf old g = keyOf new g' := by
  obtain ⟨w, hw, hkey⟩ := hp.oldOk.maskKey_front hp.oldMem hon
  obtain ⟨w', hw', hkey'⟩ := hp.newOk.maskKey_front hp.newMem hon'
  rw [hw, hw', Option.some_inj] at e
  rw [hkey, hkey', fold_upToBang, e, ← fold_upToBang]

theorem Pair.seen_of_met (hp : Pair nick hm old new c d os ns) (hon' : OnChan new d g')
    (h : Met old new c g') : Seen old new c g' := by
  obtain ⟨g, hon, e⟩ := h
  exact ⟨g, hon, hp.key_of_mask hon hon' e⟩

/-- A nick spelled as in the new state is called like the one it is the same as up to case. -/
theorem Patchable.name_of_key (h : Patchable nick hm new) (hk : Known new g')
    (hs : SpelledIn new (nameOf O g)) (e : keyOf O g = keyOf new g') : nameOf O g = nameOf new g' := by
  obtain ⟨g₁, hk₁, hg₁⟩ := hs
  obtain rfl := h.unique.key_inj hk₁ hk ((keyOf_congr hg₁).trans e)
  exact hg₁.symm

/-- After the first loop the members of the new channel that the old one has by hostmask are there. -/
theorem Leaving.merging (hp : Pair nick hm old new c d os ns)
    (h : Leaving nick hm old new O₀ c d os [] O) :
    Merging nick hm old new O₀ c d os.topic os.modes (Met old new c) O := by
  obtain ⟨left, hch, hleft, hmembs⟩ := h.chan
  refine ⟨h.copy, h.aside, h.listed, ⟨_, hch, rfl, rfl⟩, fun a => ⟨?_, ?_⟩⟩
  · rintro ⟨g, ⟨ch, m, cn, hch', hm, hcn, rfl⟩, ha⟩
    obtain rfl := Option.some.inj (hch.symm.trans hch')
    obtain ⟨hsame, hname⟩ := hmembs m hm
    have hcn' : old.membHeap m = some cn := hsame.symm.trans hcn
    obtain ⟨hkey, hspell⟩ := hname cn hcn'
    obtain ⟨hin, hwhy⟩ := (hleft m).mp hm
    obtain ⟨cn₁, hcn₁, g', hon', e⟩ := hwhy.resolve_left List.not_mem_nil
    obtain rfl := Option.some.inj (hcn'.symm.trans hcn₁)
    have hon : OnChan old c cn.globalNick := ⟨os, m, cn, hp.oldChan, hin, hcn', rfl⟩
    refine ⟨g', hon', ⟨_, hon, e.symm⟩, ?_⟩
    rw [← hp.newOk.name_of_key (hon'.known hp.newOk.graph hp.newMem)
      (hspell.resolve_left List.not_mem_nil) (hkey.trans (hp.key_of_mask hon hon' e.symm)), ha]
  · rintro ⟨g', hon', ⟨g, hon, e⟩, ha⟩
    obtain ⟨ch, m, cn, hch', hm, hcn, rfl⟩ := id hon
    obtain rfl := Option.some.inj (hp.oldChan.symm.trans hch')
    have hm' : m ∈ left := (hleft m).mpr ⟨hm, .inr ⟨cn, hcn, g', hon', e.symm⟩⟩
    obtain ⟨hsame, hname⟩ := hmembs m hm'
    obtain ⟨hkey, hspell⟩ := hname cn hcn
    refine ⟨cn.globalNick, ⟨_, m, cn, hch, hm', hsame.trans hcn, rfl⟩, ?_⟩
    rw [hp.newOk.name_of_key (hon'.known hp.newOk.graph hp.newMem)
      (hspell.resolve_left List.not_mem_nil) (hkey.trans (hp.key_of_mask hon hon' e)), ha]

/-- A member of the new channel that the old one does not know by nick enters. -/
theorem Merging.join (hp : Pair nick hm old new c d os ns) (hgraph : Graph O₀)
    (h : Merging nick hm old new O₀ c d t md p O) (hon' : OnChan new d g') (hnot : ¬ Seen old new c g')
    (hno : ¬ p g') {w : Str} (hname : nameOf new g' = some (upToBang w)) (hbang : chr '!' ∈ w) :
    Total (stateStep O (now, vircParseLine (some w) [some (str "JOIN"), some ns.name]))
      (Merging nick hm old new O₀ c d t md (fun x => p x ∨ x = g')) := by
  have hk := hon'.known hp.newOk.graph hp.newMem
  have hspell := hp.newOk.names g' _ hk hname
  obtain ⟨hne, hcomma, -⟩ := hp.newOk.channels d hp.newMem ns hp.newChan
  -- the user is on both channels
  have hme : Casemapping.unknown.fold (upToBang w) ≠ Casemapping.unknown.fold nick := by
    intro e
    refine hnot ⟨meRef, hp.oldOk.present c hp.oldMem, ?_⟩
    rw [keyOf_eq hp.oldOk.nameOf_me, keyOf_eq hname, e]
  have habs : ∀ g, OnChan O c g → keyOf O g ≠ some (Casemapping.unknown.fold (upToBang w)) := by
    intro g hon e
    obtain ⟨a, ha⟩ := h.copy.unique.named g (hon.known h.copy.graph h.listed)
    obtain ⟨g₁, hon₁, hp₁, hg₁⟩ := (h.names a).mp ⟨g, hon, ha⟩
    have hsame : keyOf new g₁ = keyOf new g' := by
      rw [keyOf_congr (hg₁.trans ha.symm), e, keyOf_eq hname]
    obtain rfl := hp.newOk.unique.key_inj (hon₁.known hp.newOk.graph hp.newMem) hk hsame
    exact hno hp₁
  have joined : ∃ O', stateStep O (now, vircParseLine (some w) [some (str "JOIN"), some ns.name]) =
      .ok O' ∧ Copy nick hm old O' ∧ Aside new c O O' ∧ Entered c (upToBang w) O O' :=
    h.copy.joinLine hp.oldOk.distinct h.listed hne hcomma hp.chanKey hbang hspell.nonempty
      hspell.prefixless hme habs ⟨g', hk, hname⟩
  obtain ⟨O', hstep, hcopy, haside, hin⟩ := joined
  refine ensures_of_eq_ok hstep ⟨hcopy, h.aside.trans haside hgraph, hin.channels.symm ▸ h.listed,
    ?_, fun a => ?_⟩
  · obtain ⟨ch, hch, htopic, hmodes⟩ := h.chan
    obtain ⟨ch₁, ch', hch₁, hch', e⟩ := hin.chan
    obtain rfl := Option.some.inj (hch.symm.trans hch₁)
    exact ⟨ch', hch', e ▸ htopic, e ▸ hmodes⟩
  · obtain ⟨g₀, hg₀, hmem⟩ := hin.member
    constructor
    · rintro ⟨g, hon, ha⟩
      rcases (hmem g).mp hon with hon | rfl
      · obtain ⟨g₁, hon₁, hp₁, hg₁⟩ := (h.names a).mp ⟨g, hon, (hin.names g hon).symm.trans ha⟩
        exact ⟨g₁, hon₁, .inl hp₁, hg₁⟩
      · exact ⟨g', hon', .inr rfl, hname.trans (hg₀.symm.trans ha)⟩
    · rintro ⟨g₁, hon₁, hp₁ | rfl, hg₁⟩
      · obtain ⟨g, hon, ha⟩ := (h.names a).mpr ⟨g₁, hon₁, hp₁, hg₁⟩
        exact ⟨g, (hmem g).mpr (.inl hon), (hin.names g hon).trans ha⟩
      · exact ⟨g₀, (hmem g₀).mpr (.inr rfl), hg₀.trans (hname.symm.trans hg₁)⟩

/-- The second loop: the members of the new channel that the old one does not know by nick enter. -/
theorem sendNewMembers_joins (hp : Pair nick hm old new c d os ns) (hgraph : Graph O₀)
    {origin : Option Str} {n : ℕ} {ms : List Ref} (hms : ∀ m ∈ ms, m ∈ ns.nicks) (hnodup : ms.Nodup)
    (hno : ∀ m ∈ ms, ∀ cn, new.membHeap m = some cn → p cn.globalNick →
      Seen old new c cn.globalNick) {cl : Client}
    (h : Following origin old n (Merging nick hm old new O₀ c d t md p) cl) :
    Total (sendNewMembers now old new c ms cl) (fun r => r.1 = true ∧
      Following origin old n (Merging nick hm old new O₀ c d t md fun g' => p g' ∨
        ¬ Seen old new c g' ∧ ∃ m ∈ ms, ∃ cn, new.membHeap m = some cn ∧ cn.globalNick = g') r.2) := by
  induction ms generalizing n p cl with
  | nil =>
      exact ⟨rfl, h.imp le_rfl fun O hO => hO.congr fun g' _ => by simp⟩
  | cons m ms ih =>
      have hm' := hms m List.mem_cons_self
      obtain ⟨cn, gn, l, hcc⟩ := hp.newOk.graph.link_of_chan hp.newMem hp.newChan hm'
      have hon : OnChan new d cn.globalNick := ⟨ns, m, cn, hp.newChan, hm', l.memb, rfl⟩
      obtain ⟨nn, w, hn, hw, hbang, hname, hspell⟩ := hp.newOk.member hp.newMem hon
      have hkey : keyOf new cn.globalNick = some (Casemapping.unknown.fold (upToBang w)) :=
        keyOf_eq ((nameOf_eq hn).trans hname)
      have hms' : ∀ m₁ ∈ ms, m₁ ∈ ns.nicks := fun m₁ hm₁ => hms m₁ (List.mem_cons_of_mem _ hm₁)
      -- the members behind this one are other nicks
      have hother : ∀ m₁ ∈ ms, ∀ cn₁, new.membHeap m₁ = some cn₁ →
          cn₁.globalNick ≠ cn.globalNick := by
        intro m₁ hm₁ cn₁ hcn₁ e
        obtain rfl := hp.newOk.unique.members d hp.newMem ns hp.newChan m₁ (hms' m₁ hm₁) m hm' cn₁ cn
          hcn₁ l.memb e
        exact (List.nodup_cons.mp hnodup).1 hm₁
      have split : ∀ g', (∃ m₁ ∈ m :: ms, ∃ cn₁, new.membHeap m₁ = some cn₁ ∧ cn₁.globalNick = g') ↔
          g' = cn.globalNick ∨ ∃ m₁ ∈ ms, ∃ cn₁, new.membHeap m₁ = some cn₁ ∧ cn₁.globalNick = g' := by
        intro g'
        constructor
        · rintro ⟨m₁, hm₁, cn₁, hcn₁, e⟩
          rcases List.mem_cons.mp hm₁ with rfl | hm₁
          · obtain rfl := Option.some.inj (l.memb.symm.trans hcn₁)
            exact .inl e.symm
          · exact .inr ⟨m₁, hm₁, cn₁, hcn₁, e⟩
        · rintro (rfl | ⟨m₁, hm₁, he⟩)
          · exact ⟨m, List.mem_cons_self, cn, l.memb, rfl⟩
          · exact ⟨m₁, List.mem_cons_of_mem _ hm₁, he⟩
      rw [sendNewMembers, NetworkState.memb_eq l.memb, ok_bind, NetworkState.nick_eq hn, ok_bind, hname]
      dsimp only
      rcases hp.oldOk.findNick hp.oldMem hspell with ⟨m₁, g, hfind, hong, hg⟩ | ⟨hfind, hnone⟩
      · have hseen : Seen old new c cn.globalNick := ⟨g, hong, hg.trans hkey.symm⟩
        rw [hfind, ok_bind, sendEntering, ok_bind, andThen, if_pos rfl]
        refine (ih hms' hnodup.of_cons (fun m₁ hm₁ => hno m₁ (List.mem_cons_of_mem _ hm₁)) h).imp
          fun r hr => ⟨hr.1, hr.2.imp le_rfl fun O hO => hO.congr fun g' _ => ?_⟩
        refine or_congr_right (and_congr_right fun hnot => ?_)
        rw [split g']
        refine (or_iff_right ?_).symm
        rintro rfl
        exact hnot hseen
      · have hnot : ¬ Seen old new c cn.globalNick := by
          rintro ⟨g, hong, e⟩
          exact hnone g hong (e.trans hkey)
        have hno' : ¬ p cn.globalNick :=
          fun hp' => hnot (hno m List.mem_cons_self cn l.memb hp')
        rw [hfind, ok_bind, sendEntering, hcc, NetworkState.chan_eq hp.newChan, ok_bind, hw]
        refine andThen_bind (P := Following origin old n (Merging nick hm old new O₀ c d t md
          fun x => p x ∨ x = cn.globalNick)) ((h.send (commandOf_kept rfl (by decide)) fun O hO =>
            hO.join hp hgraph hon hnot hno' ((nameOf_eq hn).trans hname) hbang).imp fun r hr =>
            ⟨hr.1, hr.2.imp n.le_succ fun _ hO => hO⟩) fun cl hcl => ?_
        refine (ih hms' hnodup.of_cons (fun m₁ hm₁ cn₁ hcn₁ hwhy => ?_) hcl).imp
          fun r hr => ⟨hr.1, hr.2.imp le_rfl fun O hO => hO.congr fun g' _ => ?_⟩
        · exact hno m₁ (List.mem_cons_of_mem _ hm₁) cn₁ hcn₁
            (hwhy.resolve_right (hother m₁ hm₁ cn₁ hcn₁))
        · rw [split g', or_assoc, and_or_left]
          refine or_congr_right (or_congr_left ?_)
          exact ⟨fun e => ⟨e ▸ hnot, e⟩, And.right⟩

end

/-! ### Topic and modes -/

/-- The topic that the channel gets: the new one, if there is one and someone set it. -/
def topicAfter (os ns : ChannelState) : Option Str :=
  if ns.topic ≠ none ∧ ns.topicSetBy ≠ none then ns.topic else os.topic

theorem topicAfter_eq_iff {os ns : ChannelState} : topicAfter os ns = ns.topic ↔
    os.topic = ns.topic ∨ ns.topic ≠ none ∧ ns.topicSetBy ≠ none := by
  unfold topicAfter
  split
  · next h => simp [h]
  · next h => simp [h]

section
variable {nick hm : Str} {old new O₀ O : NetworkState} {c d g g' : Ref} {os ns : ChannelState}
  {now : Long} {t : Option Str} {md md' : Modes} {p p' : Ref → Prop} {origin : Option Str} {n : ℕ}
  {cl : Client}

theorem OnChan.setChan {r : Ref} {ch : ChannelState} (hch : O.chanHeap r = some ch)
    (ch' : ChannelState) (hn : ch'.nicks = ch.nicks) : OnChan (O.setChan r ch') c g ↔ OnChan O c g := by
  have hnicks : ((O.setChan r ch').chanHeap c).map (·.nicks) = (O.chanHeap c).map (·.nicks) := by
    rw [NetworkState.setChan_chanHeap, Heap.set_apply]
    split
    · subst_vars
      rw [hch, Option.map_some, Option.map_some, hn]
    · rfl
  have on : ∀ s : NetworkState, OnChan s c g ↔ ∃ l, (s.chanHeap c).map (·.nicks) = some l ∧
      ∃ m ∈ l, ∃ cn, s.membHeap m = some cn ∧ cn.globalNick = g := by
    intro s
    constructor
    · rintro ⟨ch₁, m, cn, hch₁, hm, hcn, e⟩
      exact ⟨_, by rw [hch₁, Option.map_some], m, hm, cn, hcn, e⟩
    · rintro ⟨l, hl, m, hm, cn, hcn, e⟩
      obtain ⟨ch₁, hch₁, rfl⟩ := Option.map_eq_some_iff.mp hl
      exact ⟨ch₁, m, cn, hch₁, hm, hcn, e⟩
  rw [on, on, hnicks]
  rfl

/-- The channel gets another topic or other modes. -/
theorem Merging.setChan (hgraph : Graph O₀) (h : Merging nick hm old new O₀ c d t md p O)
    {ch : ChannelState} (hch : O.chanHeap c = some ch) (ch' : ChannelState)
    (hname : ch'.name = ch.name) (hn : ch'.nicks = ch.nicks) (hw : ch'.network = ch.network)
    (hmodes : KeepsNul ch.modes ch'.modes) :
    Merging nick hm old new O₀ c d ch'.topic ch'.modes p (O.setChan c ch') := by
  refine ⟨h.copy.setChan hch hname hn hw hmodes, h.aside.trans .setChan hgraph, h.listed,
    ⟨ch', Heap.set_same _ _ _, rfl, rfl⟩, fun a => ?_⟩
  rw [← h.names a]
  exact exists_congr fun g => and_congr_left fun _ => OnChan.setChan hch ch' hn

/-- TOPIC: the channel gets the topic that it should get. -/
theorem sendNewTopic_merges (hp : Pair nick hm old new c d os ns) (hgraph : Graph O₀)
    (h : Following origin old n (Merging nick hm old new O₀ c d os.topic md p) cl) :
    Total (sendNewTopic now cl os ns) (fun r => r.1 = true ∧
      Following origin old n (Merging nick hm old new O₀ c d (topicAfter os ns) md p) r.2) := by
  unfold sendNewTopic
  split
  · refine (h.send (commandOf_kept rfl (by decide)) fun O hO => ?_).imp fun r hr => ⟨hr.1, hr.2.imp n.le_succ fun _ hO => hO⟩
    unfold topicAfter
    cases ht : ns.topic with
    | none =>
        rw [if_neg (by simp)]
        exact ensures_of_eq_ok (topicLine_bare _) hO
    | some w =>
        cases hs : ns.topicSetBy with
        | none =>
            rw [if_neg (by simp)]
            exact ensures_of_eq_ok
              (hO.copy.topicLine_nobody hp.oldOk.distinct hO.listed hp.chanKey) hO
        | some o =>
            obtain ⟨ch, hch, htopic, rfl⟩ := hO.chan
            rw [if_pos (by simp)]
            exact ensures_of_eq_ok (hO.copy.topicLine hp.oldOk.distinct hO.listed hp.chanKey hch)
              (hO.setChan hgraph hch { ch with
                topic := some w, topicSetTime := now, topicSetBy := some (upToBang o) } rfl rfl rfl id)
  · next heq =>
    have hsame : topicAfter os ns = os.topic := by
      unfold topicAfter
      split
      · exact (not_not.mp heq).symm
      · rfl
    exact ⟨rfl, hsame.symm ▸ h⟩

/-- The modes are the same, or there are none to set, or someone sets them. -/
def Voiced (origin : Option Str) (os ns : ChannelState) : Prop :=
  os.modes = ns.modes ∨ mode2stringBody ns.modes = [] ∨ origin ≠ none

theorem Letters.signless {m : Modes} (h : Letters m) :
    ∀ b ∈ mode2stringBody m, b ≠ chr '+' ∧ b ≠ chr '-' := by
  intro b hb
  obtain ⟨i, hi, e⟩ := mem_mode2stringBody.mp hb
  obtain ⟨-, hplus, hminus⟩ := h i hi
  exact ⟨fun hx => hplus (by rw [e, hx]), fun hx => hminus (by rw [e, hx])⟩

/-- MODE: the flags of the new channel are set, or the line of nobody stops the program. -/
theorem sendNewModes_merges (hp : Pair nick hm old new c d os ns) (hgraph : Graph O₀)
    (h : Following origin old n (Merging nick hm old new O₀ c d t os.modes p) cl) :
    Ensures (sendNewModes now cl os ns) (fun r => r.1 = true ∧ Following origin old n
      (Merging nick hm old new O₀ c d t (modesAfter os.modes (mode2stringBody ns.modes)) p) r.2 ∧
      Voiced origin os ns) (fun _ => ¬ Voiced origin os ns) := by
  obtain ⟨-, -, htarget, hletters⟩ := hp.newOk.channels d hp.newMem ns hp.newChan
  unfold sendNewModes
  split
  · next heq =>
    have e : os.modes = ns.modes := sameModes_iff.mp heq
    have hsame : modesAfter os.modes (mode2stringBody ns.modes) = os.modes := by
      rw [← e]
      exact modesAfter_self _
    exact ⟨rfl, hsame.symm ▸ h, .inl e⟩
  · next hne =>
    have hdiff : os.modes ≠ ns.modes := fun e => hne (sameModes_iff.mpr e)
    rw [clientSendArgs, h.origin]
    cases hw : mode2stringBody ns.modes with
    | nil =>
        have hnone : mode2string ns.modes = none := by
          rw [mode2string, hw]
          split <;> rfl
        rw [hnone, modesAfter_nil]
        refine (h.send (commandOf_kept rfl (by decide)) fun O hO => ?_).imp fun r hr =>
          ⟨hr.1, hr.2.imp n.le_succ fun _ hO => hO, .inr (.inl hw)⟩
        exact ensures_of_eq_ok (modeLine_bare _) hO
    | cons b w =>
        have hsome : mode2string ns.modes = some (chr '+' :: b :: w) := by
          have h0 : ns.modes ⟨0, by decide⟩ = false :=
            Bool.eq_false_iff.mpr fun h0 => (hletters _ h0).1 rfl
          rw [mode2string, h0, hw]
          rfl
        have hsign := hletters.signless
        rw [hw] at hsign
        rw [hsome]
        cases origin with
        | none =>
            have hmute : ¬ Voiced none os ns := by
              rintro (e | e | e)
              · exact hdiff e
              · rw [hw] at e
                cases e
              · exact e rfl
            have stops : ∀ O, Merging nick hm old new O₀ c d t os.modes p O → Ensures
                (stateStep O (now, vircParseLine none [some (str "MODE"), some ns.name,
                  some (chr '+' :: b :: w)])) (fun _ => False) (fun _ => ¬ Voiced none os ns) := by
              intro O hO
              rw [hO.copy.modeLine_nobody hp.oldOk.distinct hO.listed hp.chanKey htarget]
              exact hmute
            refine (h.send (commandOf_kept rfl (by decide)) stops).imp fun r hr => ?_
            obtain ⟨-, -, -, hno⟩ := hr.2.state
            exact hno.elim
        | some o =>
            refine (h.send (commandOf_kept rfl (by decide)) fun O hO => ?_).imp fun r hr =>
              ⟨hr.1, hr.2.imp n.le_succ fun _ hO => hO, .inr (.inr (Option.some_ne_none o))⟩
            obtain ⟨ch, hch, rfl, hmodes⟩ := hO.chan
            rw [hO.copy.modeLine hp.oldOk.distinct hO.listed hp.chanKey htarget hch hsign, hmodes]
            exact hO.setChan hgraph hch { ch with modes := modesAfter os.modes (b :: w) } rfl rfl rfl
              (hmodes.symm ▸ modesAfter_keepsNul _ _)

end

/-! ### A channel of both states -/

section
variable {nick hm : Str} {old new O₀ O : NetworkState} {c d g g' : Ref} {os ns : ChannelState}
  {now : Long} {origin : Option Str} {n : ℕ} {cl : Client}

theorem Graph.members_nodup (h : Graph O) (hc : c ∈ O.channels) {ch : ChannelState}
    (hch : O.chanHeap c = some ch) : ch.nicks.Nodup := by
  obtain ⟨ch', hch', -, hnodup⟩ := h.chan_live c hc
  rw [hch] at hch'
  cases hch'
  exact hnodup

/-- **A channel of both states** gets the members, the topic and the flags of the new one that can be
carried over. -/
theorem clientSendChannelStateDiff_merges (hp : Pair nick hm old new c d os ns) (hgraph : Graph O₀)
    (h : Following origin old n (Leaving nick hm old new O₀ c d os os.nicks) cl) :
    Ensures (clientSendChannelStateDiff now cl old new c d) (fun r => r.1 = true ∧
      Following origin old (n + os.nicks.length) (Merging nick hm old new O₀ c d (topicAfter os ns)
        (modesAfter os.modes (mode2stringBody ns.modes))
        fun g' => Met old new c g' ∨ ¬ Seen old new c g') r.2 ∧ Voiced origin os ns)
      (fun _ => ¬ Voiced origin os ns) := by
  have hnodup := hp.oldOk.graph.members_nodup hp.oldMem hp.oldChan
  have hnodup' := hp.newOk.graph.members_nodup hp.newMem hp.newChan
  rw [clientSendChannelStateDiff, NetworkState.chan_eq hp.oldChan, ok_bind,
    NetworkState.chan_eq hp.newChan, ok_bind]
  refine andThen_bind ((sendOldMembers_leaves hp hgraph (fun _ hm => hm) hnodup h).mono
    (fun _ hr => hr) fun _ => False.elim) fun cl₁ h₁ => ?_
  refine andThen_bind ((sendNewMembers_joins hp hgraph (fun _ hm => hm) hnodup' ?_
    (h₁.imp le_rfl fun O hO => hO.merging hp)).mono (fun _ hr => hr) fun _ => False.elim)
    fun cl₂ h₂ => ?_
  · intro m hm cn hcn hmet
    exact hp.seen_of_met ⟨ns, m, cn, hp.newChan, hm, hcn, rfl⟩ hmet
  have hall : ∀ g', OnChan new d g' → (Met old new c g' ∨ ¬ Seen old new c g' ∧
      (∃ m ∈ ns.nicks, ∃ cn, new.membHeap m = some cn ∧ cn.globalNick = g') ↔
      Met old new c g' ∨ ¬ Seen old new c g') := by
    rintro g' ⟨ch, m, cn, hch, hm, hcn, e⟩
    obtain rfl := Option.some.inj (hp.newChan.symm.trans hch)
    exact or_congr_right (and_iff_left ⟨m, hm, cn, hcn, e⟩)
  have h₂' := h₂.imp le_rfl fun O hO => hO.congr hall
  refine andThen_bind ((sendNewTopic_merges hp hgraph h₂').mono (fun _ hr => hr)
    fun _ => False.elim) fun cl₃ h₃ => ?_
  exact sendNewModes_merges hp hgraph h₃

end

/-! ### All channels -/

/-- The channel at `c` is still that of the old state. -/
structure Untouched (old : NetworkState) (c : Ref) (O : NetworkState) : Prop where
  listed : c ∈ O.channels
  chan : O.chanHeap c = old.chanHeap c
  memb : ∀ m cn, old.membHeap m = some cn → cn.channel = c → O.membHeap m = some cn
  name : ∀ g, OnChan old c g → keyOf O g = keyOf old g

/-- The channel at `c` of the old state is what can be carried over of that at `d` of the new one. -/
def Carried (old new O : NetworkState) (c d : Ref) : Prop :=
  ∃ os ns ch, old.chanHeap c = some os ∧ new.chanHeap d = some ns ∧ O.chanHeap c = some ch ∧
    ch.topic = topicAfter os ns ∧ ch.modes = modesAfter os.modes (mode2stringBody ns.modes) ∧
    NamesAre new O c d fun g' => Met old new c g' ∨ ¬ Seen old new c g'

/-- The channel at `c` of the old state is done: if the new state has it, it is what can be carried
over, else it is gone. -/
structure Settled (old new : NetworkState) (c : Ref) (O : NetworkState) : Prop where
  both : ∀ d ∈ new.channels, chanKey old c = chanKey new d → c ∈ O.channels ∧ Carried old new O c d
  gone : (∀ d ∈ new.channels, chanKey old c ≠ chanKey new d) → c ∉ O.channels

/-- The channels `rs` of the old state are still to be done. -/
structure Progress (nick hm : Str) (old new : NetworkState) (rs : List Ref) (O : NetworkState) :
    Prop where
  copy : Copy nick hm old O
  todo : ∀ c ∈ rs, Untouched old c O
  done : ∀ c ∈ old.channels, c ∉ rs → Settled old new c O

section
variable {nick hm : Str} {old new O O' : NetworkState} {c d g g' : Ref} {os ns : ChannelState}
  {now : Long} {origin : Option Str} {n : ℕ} {cl : Client}

theorem Untouched.onChan (h : Untouched old c O) (hg : Graph old) (hc : c ∈ old.channels) :
    OnChan O c g ↔ OnChan old c g := by
  have same : ∀ ch, old.chanHeap c = some ch → ∀ m ∈ ch.nicks, O.membHeap m = old.membHeap m := by
    intro ch hch m hm
    obtain ⟨cn, gn, l, e⟩ := hg.link_of_chan hc hch hm
    rw [l.memb]
    exact h.memb m cn l.memb e
  constructor
  · rintro ⟨ch, m, cn, hch, hm, hcn, e⟩
    rw [h.chan] at hch
    exact ⟨ch, m, cn, hch, hm, (same ch hch m hm).symm.trans hcn, e⟩
  · rintro ⟨ch, m, cn, hch, hm, hcn, e⟩
    exact ⟨ch, m, cn, h.chan.trans hch, hm, (same ch hch m hm).trans hcn, e⟩

theorem Untouched.leaving (hp : Pair nick hm old new c d os ns) (hcopy : Copy nick hm old O)
    (h : Untouched old c O) : Leaving nick hm old new O c d os os.nicks O := by
  refine ⟨hcopy, .refl, h.listed, os.nicks, h.chan.trans hp.oldChan,
    fun m => ⟨fun hm => ⟨hm, .inl hm⟩, And.left⟩, fun m hm => ?_⟩
  obtain ⟨cn, gn, l, e⟩ := hp.oldOk.graph.link_of_chan hp.oldMem hp.oldChan hm
  refine ⟨(h.memb m cn l.memb e).trans l.memb.symm, fun cn' hcn' => ⟨h.name _ ?_, .inl hm⟩⟩
  exact ⟨os, m, cn', hp.oldChan, hm, hcn', rfl⟩

theorem Untouched.aside (h : Untouched old c O) (hg : Graph old) (hc : c ∈ old.channels) (ha : Aside new d O O') (hne : c ≠ d) : Untouched old c O' where
  listed := (ha.listed c hne).mpr h.listed
  chan := (ha.chan c hne).trans h.chan
  memb := fun m cn hm e => ha.memb m cn (h.memb m cn hm e) (e ▸ hne)
  name := fun g hon =>
    (ha.name c h.listed hne g ((h.onChan hg hc).mpr hon)).1.trans (h.name g hon)

theorem Carried.aside (h : Carried old new O c d) (hn : Patchable nick hm new) (hd : d ∈ new.channels)
    (hO : Copy nick hm old O) (hc : c ∈ O.channels) {x : Ref} (ha : Aside new x O O') (hne : c ≠ x) :
    Carried old new O' c d := by
  obtain ⟨os, ns, ch, hos, hns, hch, htopic, hmodes, hnames⟩ := h
  refine ⟨os, ns, ch, hos, hns, (ha.chan c hne).trans hch, htopic, hmodes, fun a => ?_⟩
  rw [← hnames a]
  refine exists_congr fun g => ?_
  rw [ha.onChan hO.graph hc hne]
  refine and_congr_right fun hon => ?_
  obtain ⟨hkey, hname⟩ := ha.name c hc hne g hon
  -- a member is called like one of the new state, so it keeps its name
  suffices e : nameOf O' g = nameOf O g by rw [e]
  refine hname.elim id fun hs => ?_
  obtain ⟨b, hb⟩ := hO.unique.named g (hon.known hO.graph hc)
  obtain ⟨g', hon', -, hg'⟩ := (hnames b).mp ⟨g, hon, hb⟩
  have hsame : nameOf new g' = nameOf O g := hg'.trans hb.symm
  exact (hn.name_of_key (hon'.known hn.graph hd) hs (hkey.trans (keyOf_congr hsame).symm)).trans hsame

theorem Settled.aside (h : Settled old new c O) (hn : Patchable nick hm new)
    (hO : Copy nick hm old O) {x : Ref} (ha : Aside new x O O') (hne : c ≠ x) :
    Settled old new c O' where
  both := by
    intro d hd e
    obtain ⟨hc, hcarried⟩ := h.both d hd e
    exact ⟨(ha.listed c hne).mpr hc, hcarried.aside hn hd hO hc ha hne⟩
  gone := fun hno hc => h.gone hno ((ha.listed c hne).mp hc)

/-- What was done for the channel at `c` leaves the others as they were. -/
theorem Progress.next {rs : List Ref} (ho : Graph old) (hn : Patchable nick hm new)
    (h : Progress nick hm old new (c :: rs) O) (hrs : ∀ c' ∈ c :: rs, c' ∈ old.channels)
    (hnot : c ∉ rs) (hcopy : Copy nick hm old O') (ha : Aside new c O O')
    (hc : Settled old new c O') : Progress nick hm old new rs O' where
  copy := hcopy
  todo := by
    intro c' hc'
    have hin := List.mem_cons_of_mem c hc'
    refine (h.todo c' hin).aside ho (hrs c' hin) ha ?_
    rintro rfl
    exact hnot hc'
  done := by
    intro c' hc' hno
    by_cases e : c' = c
    · exact e ▸ hc
    · refine (h.done c' hc' fun hin => ?_).aside hn h.copy ha e
      exact (List.mem_cons.mp hin).elim e hno

/-- If the channel is one of both states then someone sets its modes. -/
def Heard (nick hm : Str) (origin : Option Str) (old new : NetworkState) (c : Ref) : Prop :=
  ∀ d os ns, Pair nick hm old new c d os ns → Voiced origin os ns

theorem Patchable.nonempty (h : Patchable nick hm O) (hc : c ∈ O.channels) {ch : ChannelState}
    (hch : O.chanHeap c = some ch) : 0 < ch.nicks.length := by
  obtain ⟨ch', m, cn, hch', hm', -⟩ := h.present c hc
  obtain rfl := Option.some.inj (hch.symm.trans hch')
  exact List.length_pos_of_mem hm'

/-- A channel of the old state. -/
theorem sendOldChannel_progress {rs : List Ref} (ho : Patchable nick hm old)
    (hn : Patchable nick hm new) (hrs : ∀ c' ∈ c :: rs, c' ∈ old.channels) (hnot : c ∉ rs)
    (h : Following origin old n (Progress nick hm old new (c :: rs)) cl) :
    Ensures (sendOldChannel now cl old new c) (fun r => r.1 = true ∧
      Following origin old (n + 1) (Progress nick hm old new rs) r.2 ∧ Heard nick hm origin old new c)
      (fun _ => ¬ Heard nick hm origin old new c) := by
  have hc := hrs c List.mem_cons_self
  obtain ⟨os, hos, -⟩ := ho.graph.chan_live c hc
  obtain ⟨O₀, hO₀, hpatch, hP⟩ := h.state
  have hun := hP.todo c List.mem_cons_self
  rw [sendOldChannel, NetworkState.chan_eq hos, ok_bind]
  by_cases hd : ∃ d ∈ new.channels, chanKey old c = chanKey new d
  · obtain ⟨d, hd, e⟩ := hd
    obtain ⟨ns, hns, -⟩ := hn.graph.chan_live d hd
    have hname : Casemapping.unknown.fold os.name = Casemapping.unknown.fold ns.name := by
      rw [chanKey_eq hos, chanKey_eq hns, Option.some_inj] at e
      exact e
    have hp : Pair nick hm old new c d os ns := ⟨ho, hn, hc, hd, hos, hns, hname⟩
    rw [findChannel_key hn.graph hn.info hn.distinct hd (hname ▸ chanKey_eq hns), ok_bind]
    have hleave : Following origin old n (Leaving nick hm old new O₀ c d os os.nicks) cl :=
      ⟨h.connected, h.origin, h.sent, O₀, hO₀, hpatch, hun.leaving hp hP.copy⟩
    refine (clientSendChannelStateDiff_merges hp hP.copy.graph hleave).mono
      (fun r hr => ⟨hr.1, hr.2.1.imp (Nat.add_le_add_left (ho.nonempty hc hos) n) fun O hO => ?_,
        fun d' os' ns' hp' => ?_⟩) fun _ he hheard => he (hheard d os ns hp)
    · refine hP.next ho.graph hn hrs hnot hO.copy hO.aside ⟨fun d' hd' e' => ?_, fun hno => ?_⟩
      · obtain rfl := hn.distinct d hd d' hd' (e.symm.trans e')
        obtain ⟨ch, hch, htopic, hmodes⟩ := hO.chan
        exact ⟨hO.listed, os, ns, ch, hos, hns, hch, htopic, hmodes, hO.names⟩
      · exact absurd e (hno d hd)
    · obtain rfl := hn.distinct d hd d' hp'.newMem (e.symm.trans hp'.key)
      have hos' : os = os' := Option.some.inj (hos.symm.trans hp'.oldChan)
      have hns' : ns = ns' := Option.some.inj (hns.symm.trans hp'.newChan)
      exact hos' ▸ hns' ▸ hr.2.2
  · have hno : ∀ d ∈ new.channels, chanKey old c ≠ chanKey new d := fun d hd' e => hd ⟨d, hd', e⟩
    obtain ⟨me, hme, -, hmask⟩ := hP.copy.me
    obtain ⟨hne, hcomma, -⟩ := ho.channels c hc os hos
    rw [findChannel_noKey hn.graph hn.info fun d hd' e => hno d hd' ((chanKey_eq hos).trans e.symm),
      ok_bind, clientGetOwnHostmask, hO₀]
    simp only [NetworkState.nick_eq hme, ok_bind, pure_eq_ok, hmask]
    have step : ∀ O, Progress nick hm old new (c :: rs) O → Total
        (stateStep O (now, vircParseLine (some hm) [some (str "PART"), some os.name]))
        (Progress nick hm old new rs) := by
      intro O hO
      have hunO := hO.todo c List.mem_cons_self
      have parted : ∃ O', stateStep O (now, vircParseLine (some hm)
          [some (str "PART"), some os.name]) = .ok O' ∧ Copy nick hm old O' ∧ Aside new c O O' ∧
          c ∉ O'.channels := by
        refine hO.copy.ownPart ho.distinct hunO.listed hne hcomma (chanKey_eq hos)
          (hunO.chan.trans hos) ((hunO.onChan ho.graph hc).mpr (ho.present c hc)) ho.front
          (ho.names meRef nick (.inl rfl) ho.nameOf_me).prefixless (fun m hm' cn hcn n' hn' => ?_) new
        exact ((hunO.onChan ho.graph hc).mp
          ⟨os, m, cn, hunO.chan.trans hos, hm', hcn, rfl⟩).unused ho.graph hc hn'
      obtain ⟨O', hstep, hcopy, ha, hgone⟩ := parted
      exact ensures_of_eq_ok hstep (hO.next ho.graph hn hrs hnot hcopy ha
        ⟨fun d hd' e => absurd e (hno d hd'), fun _ => hgone⟩)
    exact (h.send (commandOf_kept rfl (by decide)) step).mono (fun _ hr => ⟨hr.1, hr.2,
      fun d os' ns' hp' => absurd hp'.key (hno d hp'.newMem)⟩) fun _ => False.elim

/-- **The channels of the old state**: each is made what can be carried over of the new one, or is
left; something is sent for each. -/
theorem sendOldChannels_progress {rs : List Ref} (ho : Patchable nick hm old)
    (hn : Patchable nick hm new) (hrs : ∀ c' ∈ rs, c' ∈ old.channels) (hnodup : rs.Nodup)
    (h : Following origin old n (Progress nick hm old new rs) cl) :
    Ensures (sendOldChannels now old new rs cl) (fun r => r.1 = true ∧
      Following origin old (n + rs.length) (Progress nick hm old new []) r.2 ∧
      ∀ c ∈ rs, Heard nick hm origin old new c)
      (fun _ => ¬ ∀ c ∈ rs, Heard nick hm origin old new c) := by
  induction rs generalizing n cl with
  | nil => exact ⟨rfl, h, fun _ hc => absurd hc List.not_mem_nil⟩
  | cons c rs ih =>
      rw [sendOldChannels]
      refine andThen_bind (P := fun cl => Following origin old (n + 1) (Progress nick hm old new rs) cl ∧
        Heard nick hm origin old new c) ((sendOldChannel_progress ho hn hrs (List.nodup_cons.mp hnodup).1 h).mono
        (fun _ hr => hr) fun _ he hall => he (hall c List.mem_cons_self)) fun cl' hcl' => ?_
      rw [List.length_cons, Nat.add_comm rs.length, ← Nat.add_assoc]
      refine (ih (fun c' hc' => hrs c' (List.mem_cons_of_mem _ hc')) hnodup.of_cons hcl'.1).mono
        (fun r hr => ⟨hr.1, hr.2.1, fun c' hc' => ?_⟩)
        fun _ he hall => he fun c' hc' => hall c' (List.mem_cons_of_mem _ hc')
      rcases List.mem_cons.mp hc' with rfl | hc'
      · exact hcl'.2
      · exact hr.2.2 c' hc'

end

end Ctrlproxy
