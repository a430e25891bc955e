import Ctrlproxy.State.Free

/-!
# State — what the destructors leave

The destructors take memberships out of a state, and with them the nicks that have none left and
the channels that are freed.  `Without s R C s'` says all of what is left: `s'` is `s` without the
memberships in `R` and the channels in `C`.  Everything else is as before, field by field.

* `Without.remove`: `free_channel_nick` takes out one membership.
* `freeNames_without`: `free_names` takes out the members of a channel.
* `freeChannelState_without`: `free_channel_state` takes out the channel too.
-/

namespace Ctrlproxy
open Outcome

/-- A list without the memberships in `R`. -/
def lessMembs (R : Ref → Bool) (l : List Ref) : List Ref := l.filter fun x => !R x

/-- Whether a nick stays when the memberships in `R` are taken out: something else keeps it, it has
a membership left, or it loses none. -/
def NetworkNick.stays (n : NetworkNick) (R : Ref → Bool) : Bool :=
  decide (n.query = true ∨ lessMembs R n.channelNicks ≠ [] ∨
    lessMembs R n.channelNicks = n.channelNicks)

/-- The membership is one of a channel of the state. -/
def Linked (s : NetworkState) (x : Ref) : Prop :=
  ∃ c ∈ s.channels, ∃ ch, s.chanHeap c = some ch ∧ x ∈ ch.nicks

/-- `s'` is `s` without the memberships in `R` and the channels in `C`. -/
structure Without (s : NetworkState) (R C : Ref → Bool) (s' : NetworkState) : Prop where
  trims : Trims s s'
  /-- The channels in `C` are gone, all others stay. -/
  channels : s'.channels = s.channels.filter fun c => !C c
  /-- A nick stays as `NetworkNick.stays` says. -/
  nicks : s'.nicks = s.nicks.filter fun g => (s.nickHeap g).any (·.stays R)
  /-- A channel that stays loses the members in `R`, and nothing else. -/
  chan : ∀ c ∈ s'.channels, ∀ ch, s.chanHeap c = some ch →
    s'.chanHeap c = some { ch with nicks := lessMembs R ch.nicks }
  /-- A nick that stays loses the memberships in `R`, and nothing else. -/
  nick : ∀ g, Known s' g → ∀ n, s.nickHeap g = some n →
    s'.nickHeap g = some { n with channelNicks := lessMembs R n.channelNicks }
  /-- The memberships in `R` are freed, all others are as before. -/
  memb : ∀ x, Linked s x → s'.membHeap x = if R x then none else s.membHeap x
  info : s'.info = s.info
  isAway : s'.isAway = s.isAway

/-- A set of memberships with one more. -/
def withMemb (R : Ref → Bool) (x : Ref) : Ref → Bool := fun y => R y || decide (y = x)

/-- A set of memberships with a list of others. -/
def withMembs (R : Ref → Bool) (l : List Ref) : Ref → Bool := fun y => R y || decide (y ∈ l)

section
variable {R R' C : Ref → Bool} {x : Ref} {l : List Ref}

theorem withMembs_nil : withMembs R [] = R := by
  funext y
  simp [withMembs]

theorem withMembs_concat : withMembs R (l ++ [x]) = withMemb (withMembs R l) x := by
  funext y
  simp [withMembs, withMemb, Bool.or_assoc]

theorem lessMembs_congr (h : ∀ x ∈ l, R x = R' x) : lessMembs R l = lessMembs R' l :=
  List.filter_congr fun x hx => congrArg (! ·) (h x hx)

theorem lessMembs_none : lessMembs (fun _ => false) l = l :=
  List.filter_eq_self.mpr fun _ _ => rfl

theorem lessMembs_withMemb_of_notMem (hx : x ∉ l) :
    lessMembs (withMemb R x) l = lessMembs R l := by
  refine lessMembs_congr fun y hy => ?_
  have hne : y ≠ x := fun e => hx (e ▸ hy)
  simp [withMemb, hne]

theorem lessMembs_withMemb (hl : l.Nodup) :
    lessMembs (withMemb R x) l = (lessMembs R l).erase x := by
  rw [lessMembs, lessMembs, (hl.filter _).erase_eq_filter, List.filter_filter]
  refine List.filter_congr fun y _ => ?_
  simp [withMemb, bne, Bool.and_comm, beq_eq_decide]

theorem lessMembs_withMemb_ne (hx : x ∈ l) : lessMembs (withMemb R x) l ≠ l := by
  intro e
  have hx' : x ∈ lessMembs (withMemb R x) l := by
    rw [e]
    exact hx
  simp [lessMembs, withMemb] at hx'

theorem mem_lessMembs : x ∈ lessMembs R l ↔ x ∈ l ∧ R x = false := by
  rw [lessMembs, List.mem_filter, Bool.not_eq_true']

theorem NetworkNick.stays_congr {n : NetworkNick}
    (h : lessMembs R n.channelNicks = lessMembs R' n.channelNicks) : n.stays R = n.stays R' := by
  rw [NetworkNick.stays, NetworkNick.stays, h]

end

section
variable {s s₁ : NetworkState} {R R' C C' : Ref → Bool} {x c : Ref}

theorem Graph.linked (h : Graph s) {g : Ref} {n : NetworkNick} (hk : Known s g)
    (hn : s.nickHeap g = some n) (hx : x ∈ n.channelNicks) : Linked s x := by
  obtain ⟨cn, ch, hl, -⟩ := h.link_of_nick hk hn hx
  exact ⟨_, hl.chan_mem, ch, hl.chan, hl.in_chan⟩

theorem Without.graph (w : Without s R C s₁) (h : Graph s) : Graph s₁ := w.trims.graph h

/-- A nick that is left was there. -/
theorem Without.known (w : Without s R C s₁) {g : Ref} (hk : Known s₁ g) : Known s g := by
  rcases hk with rfl | hk
  · exact .inl rfl
  · rw [w.nicks] at hk
    exact .inr (List.mem_of_mem_filter hk)

theorem Without.channel (w : Without s R C s₁) (hc : c ∈ s₁.channels) :
    c ∈ s.channels ∧ C c = false := by
  rw [w.channels, List.mem_filter, Bool.not_eq_true'] at hc
  exact hc

/-- Nothing is taken out of a state to begin with. -/
theorem Without.refl (h : Graph s) : Without s (fun _ => false) (fun _ => false) s where
  trims := .refl
  channels := (List.filter_eq_self.mpr fun _ _ => rfl).symm
  nicks := by
    refine (List.filter_eq_self.mpr fun g hg => ?_).symm
    obtain ⟨n, hn, -⟩ := h.nick_live g (.inr hg)
    rw [hn, Option.any_some, NetworkNick.stays, lessMembs_none]
    exact decide_eq_true (.inr (.inr rfl))
  chan := by
    intro c _ ch hch
    rw [lessMembs_none]
    exact hch
  nick := by
    intro g _ n hn
    rw [lessMembs_none]
    exact hn
  memb := fun _ _ => rfl
  info := rfl
  isAway := rfl

/-- Only what the sets say of the memberships and channels of the state matters. -/
theorem Without.congr (w : Without s R C s₁) (h : Graph s)
    (hR : ∀ x, Linked s x → R x = R' x) (hC : ∀ c ∈ s.channels, C c = C' c) :
    Without s R' C' s₁ where
  trims := w.trims
  channels := w.channels.trans (List.filter_congr fun c hc => congrArg (! ·) (hC c hc))
  nicks := by
    refine w.nicks.trans (List.filter_congr fun g hg => ?_)
    obtain ⟨n, hn, -⟩ := h.nick_live g (.inr hg)
    rw [hn, Option.any_some, Option.any_some]
    exact n.stays_congr (lessMembs_congr fun x hx => hR x (h.linked (.inr hg) hn hx))
  chan := by
    intro c hc ch hch
    have hc₀ := (w.channel hc).1
    rw [w.chan c hc ch hch, lessMembs_congr fun x hx => hR x ⟨c, hc₀, ch, hch, hx⟩]
  nick := by
    intro g hg n hn
    rw [w.nick g hg n hn, lessMembs_congr fun x hx => hR x (h.linked (w.known hg) hn hx)]
  memb := by
    intro x hx
    rw [w.memb x hx, hR x hx]
  info := w.info
  isAway := w.isAway

/-- A membership of what is left, in the state before. -/
theorem Without.link (w : Without s R C s₁) (h : Graph s) {cn : ChannelNick} {ch : ChannelState}
    {gn : NetworkNick} (hl : Link s₁ x cn ch gn) : ∃ ch₀ gn₀, Link s x cn ch₀ gn₀ ∧ R x = false ∧
      ch = { ch₀ with nicks := lessMembs R ch₀.nicks } ∧
      gn = { gn₀ with channelNicks := lessMembs R gn₀.channelNicks } := by
  obtain ⟨hc, -⟩ := w.channel hl.chan_mem
  obtain ⟨ch₀, hch₀, -⟩ := h.chan_live _ hc
  obtain ⟨gn₀, hgn₀, -⟩ := h.nick_live _ (w.known hl.known)
  have hch := Option.some.inj (hl.chan.symm.trans (w.chan _ hl.chan_mem ch₀ hch₀))
  have hgn := Option.some.inj (hl.nick.symm.trans (w.nick _ hl.known gn₀ hgn₀))
  have hin : x ∈ lessMembs R ch₀.nicks := by
    have := hl.in_chan
    rwa [hch] at this
  have hin' : x ∈ lessMembs R gn₀.channelNicks := by
    have := hl.in_nick
    rwa [hgn] at this
  obtain ⟨hx, hR⟩ := mem_lessMembs.mp hin
  have hmemb := w.memb x ⟨_, hc, ch₀, hch₀, hx⟩
  rw [hR, hl.memb] at hmemb
  exact ⟨ch₀, gn₀, ⟨hc, w.known hl.known, hmemb.symm, hch₀, hgn₀, hx, (mem_lessMembs.mp hin').1⟩,
    hR, hch, hgn⟩

/-- `free_channel_nick` takes out one membership, and the nick with it when nothing keeps it. -/
theorem Without.remove (h : Graph s) (w : Without s R C s₁) {cn : ChannelNick} {ch : ChannelState}
    {gn : NetworkNick} (hl : Link s₁ x cn ch gn) :
    Without s (withMemb R x) C (removeMemb s₁ x cn ch gn) := by
  obtain ⟨ch₀, gn₀, hl₀, hRx, hch, hgn⟩ := w.link h hl
  have hg₁ := w.graph h
  have trims := removeMemb_trims hg₁ hl
  have hcs : (removeMemb s₁ x cn ch gn).channels = s₁.channels := removeMemb_channels
  obtain ⟨ch₁, hch₁, -, hnd⟩ := h.chan_live _ hl₀.chan_mem
  obtain rfl := Option.some.inj (hl₀.chan.symm.trans hch₁)
  obtain ⟨gn₁, hgn₁, hnd'⟩ := h.nick_live _ hl₀.known
  obtain rfl := Option.some.inj (hl₀.nick.symm.trans hgn₁)
  -- the membership is in the list of no other nick
  have other : ∀ g, g ≠ cn.globalNick → Known s g → ∀ n, s.nickHeap g = some n →
      x ∉ n.channelNicks := by
    intro g hne hk n hn hx
    obtain ⟨cn', ch', hl', rfl⟩ := h.link_of_nick hk hn hx
    rw [Option.some.inj (hl'.memb.symm.trans hl₀.memb)] at hne
    exact hne rfl
  have hkept : lessMembs (withMemb R x) gn₀.channelNicks = gn.channelNicks.erase x := by
    rw [lessMembs_withMemb hnd', hgn]
  have hquery : gn.query = gn₀.query := by rw [hgn]
  refine ⟨w.trims.trans trims, hcs.trans w.channels, ?_, ?_, ?_, ?_, ?_, ?_⟩
  · -- the nick of the membership is dropped exactly when it does not stay
    have stays : gn₀.stays (withMemb R x) =
        !decide (gn.channelNicks.erase x = [] ∧ gn.query = false) := by
      rw [NetworkNick.stays, hkept, ← hkept, hquery]
      have hne := lessMembs_withMemb_ne (R := R) hl₀.in_nick
      cases gn₀.query <;> simp [hne]
    have same : ∀ g ∈ s.nicks, g ≠ cn.globalNick →
        (s.nickHeap g).any (·.stays (withMemb R x)) = (s.nickHeap g).any (·.stays R) := by
      intro g hg hne
      obtain ⟨n, hn, -⟩ := h.nick_live g (.inr hg)
      rw [hn, Option.any_some, Option.any_some]
      exact n.stays_congr (lessMembs_withMemb_of_notMem (other g hne (.inr hg) n hn))
    have lookup : ∀ p : NetworkNick → Bool, (s.nickHeap cn.globalNick).any p = p gn₀ := by
      intro p
      rw [hl₀.nick, Option.any_some]
    unfold removeMemb
    split
    · next hdrop =>
      change s₁.nicks.erase cn.globalNick = _
      rw [hg₁.nicks_nodup.erase_eq_filter, w.nicks, List.filter_filter]
      refine List.filter_congr fun g hg => ?_
      by_cases e : g = cn.globalNick
      · rw [e, lookup, lookup, stays, decide_eq_true hdrop]
        simp
      · rw [same g hg e]
        simp [e]
    · next hkeep =>
      refine w.nicks.trans (List.filter_congr fun g hg => ?_)
      by_cases e : g = cn.globalNick
      · subst e
        have hin : cn.globalNick ∈ s₁.nicks :=
          hl.known.resolve_left fun e => h.me_not_listed (e ▸ hg)
        rw [w.nicks, List.mem_filter, lookup] at hin
        rw [lookup, lookup, hin.2, stays, decide_eq_false hkeep]
        rfl
      · exact (same g hg e).symm
  · intro c hc ch' hch'
    rw [hcs] at hc
    by_cases e : c = cn.channel
    · subst e
      obtain rfl := Option.some.inj (hch'.symm.trans hl₀.chan)
      rw [removeMemb_chan, lessMembs_withMemb hnd, hch]
    · rw [removeMemb_chan_other e, w.chan c hc ch' hch', lessMembs_withMemb_of_notMem]
      intro hx
      obtain ⟨cn', gn', hl', rfl⟩ := h.link_of_chan (w.channel hc).1 hch' hx
      rw [Option.some.inj (hl'.memb.symm.trans hl₀.memb)] at e
      exact e rfl
  · intro g hg n hn
    by_cases e : g = cn.globalNick
    · subst e
      obtain rfl := Option.some.inj (hl₀.nick.symm.trans hn)
      have hstay : ¬ (gn.channelNicks.erase x = [] ∧ gn.query = false) := by
        intro hdrop
        rcases hg with e | hg
        · have hq := hg₁.me_query gn (e ▸ hl.nick)
          rw [hdrop.2] at hq
          cases hq
        · exact ((removeMemb_nicks hg₁ x cn ch gn _).mp hg).2 ⟨rfl, hdrop⟩
      rw [removeMemb_nick_same hstay, hkept, hgn]
    · have hk : Known s₁ g := hg.imp_right fun hg => ((removeMemb_nicks hg₁ x cn ch gn g).mp hg).1
      rw [removeMemb_nick e, w.nick g hk n hn,
        lessMembs_withMemb_of_notMem (other g e (w.known hk) n hn)]
  · intro y hy
    rw [removeMemb_memb, Heap.del_apply, withMemb, w.memb y hy]
    by_cases e : y = x <;> simp [e]
  · exact trims.quiets.edits.info_eq.trans w.info
  · exact Eq.trans (by unfold removeMemb; split <;> rfl) w.isAway

/-- `free_names` takes out the members of a channel. -/
theorem freeNames_without (h : Graph s) (w : Without s R C s₁) {ch : ChannelState}
    (hc : c ∈ s₁.channels) (hch : s₁.chanHeap c = some ch) :
    ∃ s', freeNames s₁ c = .ok s' ∧ Without s (withMembs R ch.nicks) C s' ∧
      s'.channels = s₁.channels ∧ s'.chanHeap c = some { ch with nicks := [] } := by
  have loop : ∃ s', whileFree (nicksOf c) freeChannelNick ch.nicks.length s₁ = .ok s' ∧
      (∃ done, ch.nicks = done ++ [] ∧ Without s (withMembs R done) C s') ∧
      s'.channels = s₁.channels ∧ s'.chanHeap c = some { ch with nicks := [] } := by
    refine whileFree_ok (I := fun s' l => (∃ done, ch.nicks = done ++ l ∧
      Without s (withMembs R done) C s') ∧ s'.channels = s₁.channels ∧
      s'.chanHeap c = some { ch with nicks := l }) ?_ ?_ ⟨⟨[], rfl, withMembs_nil ▸ w⟩, rfl, hch⟩
    · rintro s' l ⟨-, -, hl⟩
      rw [nicksOf, NetworkState.chan_eq hl]
      rfl
    · rintro s' x l ⟨⟨done, hdone, w'⟩, hcs, hl⟩
      obtain ⟨cn, gn, hlink, rfl⟩ :=
        (w'.graph h).link_of_chan (hcs ▸ hc) hl List.mem_cons_self
      refine ⟨_, freeChannelNick_eq (w'.graph h) hlink,
        ⟨done ++ [x], by rw [hdone, List.append_assoc]; rfl, ?_⟩, ?_, ?_⟩
      · rw [withMembs_concat]
        exact w'.remove h hlink
      · rw [removeMemb_channels, hcs]
      · rw [removeMemb_chan]
        simp
  obtain ⟨s', hs', ⟨done, hdone, w'⟩, hcs, hch'⟩ := loop
  rw [List.append_nil] at hdone
  refine ⟨s', ?_, hdone ▸ w', hcs, hch'⟩
  rw [freeNames, NetworkState.chan_eq hch]
  simp only [ok_bind, hs', NetworkState.modifyChan, NetworkState.chan_eq hch', pure_eq_ok,
    NetworkState.setChan]
  rw [Heap.set_eq_self hch']

/-- `free_channel_state` takes out a channel with its members. -/
theorem freeChannelState_without (h : Graph s) (w : Without s R C s₁) {ch : ChannelState}
    (hc : c ∈ s₁.channels) (hch : s₁.chanHeap c = some ch) :
    ∃ s', freeChannelState s₁ c = .ok s' ∧
      Without s (withMembs R ch.nicks) (withMemb C c) s' := by
  obtain ⟨ch', hch', hw, -⟩ := (w.graph h).chan_live c hc
  obtain rfl := Option.some.inj (hch.symm.trans hch')
  obtain ⟨s', hs', w', hcs, hch''⟩ := freeNames_without h w hc hch
  refine ⟨dropChan s' c, ?_, ?_⟩
  · rw [freeChannelState, hs']
    simp only [ok_bind, NetworkState.chan_eq hch'', hw, if_true, pure_eq_ok]
    rfl
  have hnd : s'.channels.Nodup := (w'.graph h).channels_nodup
  refine ⟨w'.trims.tail (.dropChan (hcs ▸ hc) hch'' rfl), ?_, w'.nicks, ?_, w'.nick, w'.memb,
    w'.info, w'.isAway⟩
  · change s'.channels.erase c = _
    rw [hnd.erase_eq_filter, w'.channels, List.filter_filter]
    refine List.filter_congr fun y _ => ?_
    simp [withMemb, bne, Bool.and_comm, beq_eq_decide]
  · intro y hy ch₀ hch₀
    obtain ⟨hne, hy⟩ := hnd.mem_erase_iff.mp hy
    exact (Heap.del_other hne).trans (w'.chan y hy ch₀ hch₀)

/-- `free_names` returns, and the channel is empty. -/
theorem freeNames_ok (h : Graph s) {ch : ChannelState} (hc : c ∈ s.channels)
    (hch : s.chanHeap c = some ch) :
    ∃ s', freeNames s c = .ok s' ∧ Trims s s' ∧ s'.channels = s.channels ∧
      s'.chanHeap c = some { ch with nicks := [] } := by
  obtain ⟨s', hs', w, hcs, hch'⟩ := freeNames_without h (.refl h) hc hch
  exact ⟨s', hs', w.trims, hcs, hch'⟩

/-- `free_channel_state` returns, without the channel. -/
theorem freeChannelState_ok (h : Graph s) (hc : c ∈ s.channels) :
    ∃ s', freeChannelState s c = .ok s' ∧ Trims s s' := by
  obtain ⟨ch, hch, -⟩ := h.chan_live c hc
  obtain ⟨s', hs', w⟩ := freeChannelState_without h (.refl h) hc hch
  exact ⟨s', hs', w.trims⟩

end

end Ctrlproxy
