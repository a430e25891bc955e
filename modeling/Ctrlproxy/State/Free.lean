import Ctrlproxy.State.Edits

/-!
# State — the destructors

On a consistent graph the destructors return, and what they do is a sequence of edits.

* `freeChannelNick_ok`: freeing a membership takes it out of its two lists, and drops its nick
  when that was the nick's last membership and nothing else keeps the nick (`removeMemb`).
* `freeNetworkNick_ok`: freeing a nick takes out its memberships one by one.  Its query flag is
  set first, so none of them frees the nick again: the recursion has depth two.
-/

namespace Ctrlproxy
open Outcome

variable {s : NetworkState}

theorem NetworkState.nick_eq {r : Ref} {n : NetworkNick} (h : s.nickHeap r = some n) :
    s.nick r = .ok n := by
  rw [NetworkState.nick, h]

theorem NetworkState.chan_eq {r : Ref} {c : ChannelState} (h : s.chanHeap r = some c) :
    s.chan r = .ok c := by
  rw [NetworkState.chan, h]

theorem NetworkState.memb_eq {r : Ref} {m : ChannelNick} (h : s.membHeap r = some m) :
    s.memb r = .ok m := by
  rw [NetworkState.memb, h]

theorem NetworkState.nick_inv {r : Ref} {n : NetworkNick} (h : s.nick r = .ok n) :
    s.nickHeap r = some n := by
  rw [NetworkState.nick] at h
  split at h
  · cases h; assumption
  · cases h

theorem NetworkState.chan_inv {r : Ref} {c : ChannelState} (h : s.chan r = .ok c) :
    s.chanHeap r = some c := by
  rw [NetworkState.chan] at h
  split at h
  · cases h; assumption
  · cases h

theorem setChan_self {c : Ref} {ch : ChannelState} (hch : s.chanHeap c = some ch) :
    s.setChan c ch = s := by
  rw [NetworkState.setChan, Heap.set_eq_self hch]

theorem NetworkState.memb_inv {r : Ref} {m : ChannelNick} (h : s.memb r = .ok m) :
    s.membHeap r = some m := by
  rw [NetworkState.memb] at h
  split at h
  · cases h; assumption
  · cases h

/-! ### One membership -/

/-- A membership of the graph, with the objects at its two ends. -/
structure Link (s : NetworkState) (m : Ref) (cn : ChannelNick) (ch : ChannelState)
    (gn : NetworkNick) : Prop where
  chan_mem : cn.channel ∈ s.channels
  known : Known s cn.globalNick
  memb : s.membHeap m = some cn
  chan : s.chanHeap cn.channel = some ch
  nick : s.nickHeap cn.globalNick = some gn
  in_chan : m ∈ ch.nicks
  in_nick : m ∈ gn.channelNicks

/-- Every member of a channel is a link. -/
theorem Graph.link_of_chan (h : Graph s) {c m : Ref} {ch : ChannelState} (hc : c ∈ s.channels)
    (hch : s.chanHeap c = some ch) (hm : m ∈ ch.nicks) :
    ∃ cn gn, Link s m cn ch gn ∧ cn.channel = c := by
  obtain ⟨cn, hcn, rfl, hk, hback⟩ := h.to_nick c hc ch hch m hm
  obtain ⟨gn, hgn, -⟩ := h.nick_live _ hk
  exact ⟨cn, gn, ⟨hc, hk, hcn, hch, hgn, hm, hback gn hgn⟩, rfl⟩

/-- Every membership of a nick is a link. -/
theorem Graph.link_of_nick (h : Graph s) {g m : Ref} {gn : NetworkNick} (hg : Known s g)
    (hgn : s.nickHeap g = some gn) (hm : m ∈ gn.channelNicks) :
    ∃ cn ch, Link s m cn ch gn ∧ cn.globalNick = g := by
  obtain ⟨cn, hcn, rfl, hc, hback⟩ := h.to_chan g hg gn hgn m hm
  obtain ⟨ch, hch, -⟩ := h.chan_live _ hc
  exact ⟨cn, ch, ⟨hc, hg, hcn, hch, hgn, hback ch hch, hm⟩, rfl⟩

theorem Graph.link_network (h : Graph s) {m : Ref} {cn : ChannelNick} {ch : ChannelState}
    {gn : NetworkNick} (l : Link s m cn ch gn) : ch.network = true := by
  obtain ⟨ch', hch', hw, -⟩ := h.chan_live _ l.chan_mem
  rw [l.chan] at hch'
  cases hch'
  exact hw

/-- What `free_channel_nick` leaves behind. -/
def removeMemb (s : NetworkState) (m : Ref) (cn : ChannelNick) (ch : ChannelState)
    (gn : NetworkNick) : NetworkState :=
  if gn.channelNicks.erase m = [] ∧ gn.query = false then
    dropNick (unlink s m cn ch gn) cn.globalNick
  else unlink s m cn ch gn

theorem removeMemb_trims (h : Graph s) {m : Ref} {cn : ChannelNick} {ch : ChannelState}
    {gn : NetworkNick} (l : Link s m cn ch gn) : Trims s (removeMemb s m cn ch gn) := by
  have e₁ : Trim s (unlink s m cn ch gn) := .unlink l.chan_mem l.known l.memb l.chan l.nick
  unfold removeMemb
  split
  · rename_i hq
    have hmem : cn.globalNick ∈ s.nicks := by
      rcases l.known with e | hk
      · have := h.me_query gn (e ▸ l.nick)
        rw [hq.2] at this
        cases this
      · exact hk
    have hlook : (unlink s m cn ch gn).nickHeap cn.globalNick =
        some { gn with channelNicks := gn.channelNicks.erase m } := Heap.set_same _ _ _
    exact .tail (.single e₁) (.dropNick hmem hlook hq.1)
  · exact .single e₁

/-- The nick has no membership left when `free_network_nick` is entered from here, so its loop
does not run. -/
theorem freeChannelNickBody_eq (h : Graph s) {m : Ref} {cn : ChannelNick} {ch : ChannelState}
    {gn : NetworkNick} (l : Link s m cn ch gn)
    (f : NetworkState → Ref → Except Fault NetworkState) :
    freeChannelNickBody (freeNetworkNickBody f) s m = .ok (removeMemb s m cn ch gn) := by
  rw [freeChannelNickBody, NetworkState.memb_eq l.memb]
  simp only [ok_bind, NetworkState.chan_eq l.chan, pure_eq_ok]
  have hn : (s.setChan cn.channel { ch with nicks := ch.nicks.erase m }).nick cn.globalNick =
      .ok gn := NetworkState.nick_eq l.nick
  simp only [hn, ok_bind]
  unfold removeMemb
  split
  · rename_i hq
    have hne : cn.globalNick ≠ meRef := by
      intro e
      have := h.me_query gn (e ▸ l.nick)
      rw [hq.2] at this
      cases this
    rw [freeUnused, if_pos ⟨List.length_eq_zero_iff.mpr hq.1, hq.2⟩, freeNetworkNickBody,
      h.link_network l]
    simp [hne, NetworkState.nick, whileFree, channelNicksOf, hq.1, dropNick, unlink,
      NetworkState.setNick, NetworkState.setChan, h.link_network l]
  · rename_i hq
    rw [freeUnused, if_neg fun e => hq ⟨List.length_eq_zero_iff.mp e.1, e.2⟩]
    rfl

theorem freeChannelNick_eq (h : Graph s) {m : Ref} {cn : ChannelNick} {ch : ChannelState}
    {gn : NetworkNick} (l : Link s m cn ch gn) :
    freeChannelNick s m = .ok (removeMemb s m cn ch gn) :=
  freeChannelNickBody_eq h l _

theorem removeMemb_channels {m : Ref} {cn : ChannelNick} {ch : ChannelState} {gn : NetworkNick} :
    (removeMemb s m cn ch gn).channels = s.channels := by
  unfold removeMemb
  split <;> rfl

theorem removeMemb_chan {m : Ref} {cn : ChannelNick} {ch : ChannelState} {gn : NetworkNick} :
    (removeMemb s m cn ch gn).chanHeap cn.channel = some { ch with nicks := ch.nicks.erase m } := by
  unfold removeMemb
  split <;> exact Heap.set_same _ _ _

theorem removeMemb_chan_other {m : Ref} {cn : ChannelNick} {ch : ChannelState} {gn : NetworkNick}
    {x : Ref} (hx : x ≠ cn.channel) : (removeMemb s m cn ch gn).chanHeap x = s.chanHeap x := by
  unfold removeMemb
  split <;> exact Heap.set_other hx

theorem removeMemb_memb {m : Ref} {cn : ChannelNick} {ch : ChannelState} {gn : NetworkNick} :
    (removeMemb s m cn ch gn).membHeap = s.membHeap.del m := by
  unfold removeMemb
  split <;> rfl

/-- A nick that is on no channel any more is dropped if it has no query, all others stay. -/
theorem removeMemb_nicks (hg : Graph s) (m : Ref) (cn : ChannelNick) (ch : ChannelState)
    (gn : NetworkNick) (g : Ref) : g ∈ (removeMemb s m cn ch gn).nicks ↔ g ∈ s.nicks ∧
      ¬ (g = cn.globalNick ∧ gn.channelNicks.erase m = [] ∧ gn.query = false) := by
  unfold removeMemb
  split
  · rename_i hdrop
    have hmem : g ∈ s.nicks.erase cn.globalNick ↔ g ≠ cn.globalNick ∧ g ∈ s.nicks :=
      hg.nicks_nodup.mem_erase_iff
    refine hmem.trans ⟨fun h => ⟨h.2, fun h' => h.1 h'.1⟩, fun h => ⟨fun e => h.2 ⟨e, hdrop⟩, h.1⟩⟩
  · rename_i hdrop
    exact (and_iff_left fun h => hdrop h.2).symm

/-- A nick that stays has its fields, but the membership. -/
theorem removeMemb_nick {m : Ref} {cn : ChannelNick} {ch : ChannelState} {gn : NetworkNick} {g : Ref}
    (hne : g ≠ cn.globalNick) : (removeMemb s m cn ch gn).nickHeap g = s.nickHeap g := by
  unfold removeMemb
  split
  · exact (Heap.del_other hne).trans (Heap.set_other hne)
  · exact Heap.set_other hne

theorem removeMemb_nick_same {m : Ref} {cn : ChannelNick} {ch : ChannelState} {gn : NetworkNick}
    (hstay : ¬ (gn.channelNicks.erase m = [] ∧ gn.query = false)) :
    (removeMemb s m cn ch gn).nickHeap cn.globalNick =
      some { gn with channelNicks := gn.channelNicks.erase m } := by
  unfold removeMemb
  rw [if_neg hstay]
  exact Heap.set_same _ _ _

/-- A nick with the query flag survives. -/
theorem removeMemb_query {m : Ref} {cn : ChannelNick} {ch : ChannelState} {gn : NetworkNick}
    (hq : gn.query = true) : removeMemb s m cn ch gn = unlink s m cn ch gn := by
  unfold removeMemb
  rw [if_neg fun h => by rw [hq] at h; cases h.2]

/-! ### Loops -/

/-- A destructor loop whose body removes the head of the list runs to the end of the list. -/
theorem whileFree_ok {list : NetworkState → Except Fault (List Ref)}
    {free : NetworkState → Ref → Except Fault NetworkState}
    {I : NetworkState → List Ref → Prop} (hlist : ∀ s l, I s l → list s = .ok l)
    (hfree : ∀ s r l, I s (r :: l) → ∃ s', free s r = .ok s' ∧ I s' l) {l : List Ref}
    {s : NetworkState} (h : I s l) : ∃ s', whileFree list free l.length s = .ok s' ∧ I s' [] := by
  induction l generalizing s with
  | nil =>
      refine ⟨s, ?_, h⟩
      rw [List.length_nil, whileFree, hlist s [] h]
      rfl
  | cons r l ih =>
      obtain ⟨s₁, hs₁, h₁⟩ := hfree s r l h
      obtain ⟨s', hs', h'⟩ := ih h₁
      refine ⟨s', ?_, h'⟩
      rw [List.length_cons, whileFree, hlist s _ h]
      simp only [ok_bind, hs₁]
      exact hs'

/-- The memberships of a nick with the query flag are freed one by one, and the nick stays. -/
theorem freeMemberships_ok (h : Graph s) {g : Ref} {n : NetworkNick} (hg : Known s g)
    (hn : s.nickHeap g = some n) (hq : n.query = true) :
    ∃ s', whileFree (channelNicksOf g) freeChannelNick n.channelNicks.length s = .ok s' ∧
      Trims s s' ∧ s'.nicks = s.nicks ∧ s'.nickHeap g = some { n with channelNicks := [] } := by
  refine whileFree_ok (I := fun s' l => Trims s s' ∧ s'.nicks = s.nicks ∧
    s'.nickHeap g = some { n with channelNicks := l }) ?_ ?_ ⟨.refl, rfl, hn⟩
  · rintro s' l ⟨-, -, hl⟩
    rw [channelNicksOf, NetworkState.nick_eq hl]
    rfl
  · rintro s' m l ⟨he, hns, hl⟩
    have hgr := he.graph h
    have hk : Known s' g := by
      rw [Known, hns]
      exact hg
    obtain ⟨cn, ch, hlink, rfl⟩ := hgr.link_of_nick hk hl List.mem_cons_self
    have hr := removeMemb_trims hgr hlink
    have hfree := freeChannelNick_eq hgr hlink
    have hu : removeMemb s' m cn ch { n with channelNicks := m :: l } =
        unlink s' m cn ch { n with channelNicks := m :: l } := removeMemb_query hq
    rw [hu] at hr hfree
    refine ⟨_, hfree, he.trans hr, hns, ?_⟩
    exact (Heap.set_same _ _ _).trans (by simp)

/-! ### Nicks and channels -/

/-- `free_network_nick` returns, without the nick and with all others. -/
theorem freeNetworkNick_erases (h : Graph s) {g : Ref} (hg : g ∈ s.nicks) :
    ∃ s', freeNetworkNick s g = .ok s' ∧ Trims s s' ∧ s'.nicks = s.nicks.erase g := by
  obtain ⟨n, hn, -⟩ := h.nick_live g (.inr hg)
  have hne : g ≠ meRef := fun e => h.me_not_listed (e ▸ hg)
  have e₁ : Trim s (s.setNick g { n with query := true }) := .query hn
  have hset : (s.setNick g { n with query := true }).nickHeap g = some { n with query := true } :=
    Heap.set_same _ _ _
  obtain ⟨s', hs', he, hns, hn'⟩ := freeMemberships_ok (e₁.graph h) (.inr hg) hset rfl
  refine ⟨dropNick s' g, ?_,
    (Relation.ReflTransGen.head e₁ he).tail (.dropNick (hns ▸ hg) hn' rfl), ?_⟩
  · have hs'' : whileFree (channelNicksOf g) freeChannelNick n.channelNicks.length
        (s.setNick g { n with query := true }) = .ok s' := hs'
    rw [freeNetworkNick, freeNetworkNickBody, NetworkState.nick_eq hn]
    simp only [hne, and_false, if_false, ok_bind, pure_eq_ok, hs'']
    rfl
  · change s'.nicks.erase g = s.nicks.erase g
    rw [hns]
    rfl

theorem freeNetworkNick_ok (h : Graph s) {g : Ref} (hg : g ∈ s.nicks) :
    ∃ s', freeNetworkNick s g = .ok s' ∧ Trims s s' := by
  obtain ⟨s', hs', he, -⟩ := freeNetworkNick_erases h hg
  exact ⟨s', hs', he⟩

end Ctrlproxy
