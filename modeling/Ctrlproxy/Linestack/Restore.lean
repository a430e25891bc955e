import Ctrlproxy.Lib.Lists
import Ctrlproxy.Linestack.Snapshot
import Ctrlproxy.State.Lookup

/-!
# Linestack — the state a snapshot restores

`Restored s s'`: every nick, channel and member of `s` has a twin in `s'`, in the same place, that
agrees with it on the fields that are written.  `MARSHALL_PULL` makes such a state out of the text
of `s`, when no channel of `s` lists a nick twice (`MembersOnce`).  Members are written by name and
are looked up again when they are read, so of two memberships of one nick in a channel only one
comes back (`restore_fails_on_twice`).

While the members of a channel are read, the channel is in no list yet.  The proof follows the
state that has it at the end of its list; no function used here reads that list.
-/

namespace Ctrlproxy
open Outcome

/-! ### Twins -/

/-- The nicks agree on the fields that are written. -/
def SameFields (n n' : NetworkNick) : Prop :=
  n' = { n with hops := n'.hops, channelNicks := n'.channelNicks }

/-- The nicks at two addresses agree on the fields that are written. -/
def SameFieldsAt (s s' : NetworkState) (g g' : Ref) : Prop :=
  ∃ n n', s.nickHeap g = some n ∧ s'.nickHeap g' = some n' ∧ SameFields n n'

/-- The nick at `g'` is the one restored from that at `g`: it has the same place and agrees on the
fields that are written. -/
structure NickTwin (s s' : NetworkState) (g g' : Ref) : Prop where
  place : (g, g') ∈ (meRef :: s.nicks).zip (meRef :: s'.nicks)
  fields : SameFieldsAt s s' g g'

/-- The membership at `m'`, in the channel at `c'`, is the one restored from that at `m`. -/
structure MemberTwin (s s' : NetworkState) (c' m m' : Ref) : Prop where
  fields : ∃ cn cn', s.membHeap m = some cn ∧ s'.membHeap m' = some cn' ∧ cn'.modes = cn.modes ∧
    cn'.channel = c' ∧ NickTwin s s' cn.globalNick cn'.globalNick

/-- The channel at `c'` is the one restored from that at `c`: it agrees on the fields that are
written, and its members are twins, in order. -/
structure ChannelTwin (s s' : NetworkState) (c c' : Ref) : Prop where
  fields : ∃ ch ch', s.chanHeap c = some ch ∧ s'.chanHeap c' = some ch' ∧ ch' = readChannel ch ch' ∧
    List.Forall₂ (MemberTwin s s' c') ch.nicks ch'.nicks

/-- The state `s'` is `s` restored. -/
structure Restored (s s' : NetworkState) : Prop where
  me : NickTwin s s' meRef meRef
  nicks : List.Forall₂ (NickTwin s s') s.nicks s'.nicks
  channels : List.Forall₂ (ChannelTwin s s') s.channels s'.channels
  membership : Membership s'

/-- No channel lists a nick twice. -/
def MembersOnce (s : NetworkState) : Prop :=
  ∀ c ∈ s.channels, ∀ ch, s.chanHeap c = some ch →
    ch.nicks.Pairwise fun x y => ∀ cn cn', s.membHeap x = some cn → s.membHeap y = some cn' →
      cn.globalNick ≠ cn'.globalNick

/-! ### Adding objects -/

/-- From `s'` to `s''` objects are added, and no object there before changes but for the lists of
the members of the channel at `c` and of the memberships of nicks. -/
structure Grown (c : Ref) (s' s'' : NetworkState) : Prop where
  nicks : s''.nicks = s'.nicks
  nick : ∀ g n, s'.nickHeap g = some n → ∃ n', s''.nickHeap g = some n' ∧
    n' = { n with channelNicks := n'.channelNicks }
  memb : ∀ m cn, s'.membHeap m = some cn → s''.membHeap m = some cn
  chan : ∀ x, x ≠ c → s''.chanHeap x = s'.chanHeap x

section
variable {s s' s'' : NetworkState} {c : Ref}

theorem NickTwin.grown {g g' : Ref} (h : NickTwin s s' g g') (hg : Grown c s' s'') :
    NickTwin s s'' g g' := by
  obtain ⟨hp, n, n', hn, hn', e⟩ := h
  obtain ⟨n'', hn'', e'⟩ := hg.nick g' n' hn'
  refine ⟨hg.nicks ▸ hp, n, n'', hn, hn'', ?_⟩
  rw [SameFields, e', e]

theorem MemberTwin.grown {c' m m' : Ref} (h : MemberTwin s s' c' m m') (hg : Grown c s' s'') :
    MemberTwin s s'' c' m m' := by
  obtain ⟨cn, cn', hcn, hcn', e, e', ht⟩ := h.fields
  exact ⟨cn, cn', hcn, hg.memb m' cn' hcn', e, e', ht.grown hg⟩

theorem ChannelTwin.grown {x x' : Ref} (h : ChannelTwin s s' x x') (hg : Grown c s' s'')
    (hne : x' ≠ c) : ChannelTwin s s'' x x' := by
  obtain ⟨ch, ch', hch, hch', e, hm⟩ := h.fields
  exact ⟨ch, ch', hch, (hg.chan x' hne).trans hch', e, hm.imp fun _ _ ht => ht.grown hg⟩

end

/-! ### Looking members up -/

section
variable {s s' : NetworkState}

/-- A nick that is told from the others has a name, and only it is named so. -/
theorem Marshallable.named (h : Marshallable s) {g : Ref} (hg : Known s g) :
    ∃ n a, s.nickHeap g = some n ∧ n.nick = some a := by
  obtain ⟨n, hn, -⟩ := h.membership.memberships g hg
  obtain ⟨a, ha⟩ := Option.ne_none_iff_exists'.mp (h.nicks g hg n hn).1.named
  exact ⟨n, a, hn, ha⟩

theorem Marshallable.fold_inj (h : Marshallable s) {g g' : Ref} {n n' : NetworkNick} {a a' : Str}
    (hg : Known s g) (hg' : Known s g') (hn : s.nickHeap g = some n) (hn' : s.nickHeap g' = some n')
    (ha : n.nick = some a) (ha' : n'.nick = some a')
    (e : (casemapOf (some s.info)).fold a = (casemapOf (some s.info)).fold a') : g = g' := by
  refine h.distinct g g' hg hg' n n' hn hn' ?_
  rw [ha, ha', irccmp, (irccmpStr_eq_zero_iff _ _ _).mpr e]

/-- In a state that can be written a name finds the nick it is the name of. -/
theorem Marshallable.findNetworkNick (h : Marshallable s) {g : Ref} {n : NetworkNick} {a : Str}
    (hg : Known s g) (hn : s.nickHeap g = some n) (ha : n.nick = some a) :
    findNetworkNick s a = .ok (some g) := by
  have key : ∀ {r n b}, s.nickHeap r = some n → n.nick = some b →
      nickKey (casemapOf (some s.info)) s r = some ((casemapOf (some s.info)).fold b) :=
    fun hr hb => nickKey_eq ((nameOf_eq hr).trans hb)
  refine findFirst_unique (q := fun r => decide
    (nickKey (casemapOf (some s.info)) s r = some ((casemapOf (some s.info)).fold a)))
    (fun r hr => ?_) (List.mem_cons.mpr hg) (decide_eq_true (key hn ha)) fun r hr e => ?_
  · obtain ⟨m, b, hm, hb⟩ := h.named (List.mem_cons.mp hr)
    rw [NetworkState.nick_eq hm, ok_bind, hb, ircEq_fold, key hm hb]
    exact congrArg Except.ok (decide_eq_decide.mpr Option.some_inj.symm)
  · obtain ⟨m, b, hm, hb⟩ := h.named (List.mem_cons.mp hr)
    have e := of_decide_eq_true e
    rw [key hm hb, Option.some_inj] at e
    exact h.fold_inj (List.mem_cons.mp hr) hg hm hn hb ha e

/-- The nick of a member is not found among the members before it. -/
theorem Marshallable.findMember (h : Marshallable s) {c : Ref} (hc : c ∈ s.channels)
    {ch : ChannelState} (hch : s.chanHeap c = some ch) {g : Ref} {n : NetworkNick} {a : Str}
    (hg : Known s g) (hn : s.nickHeap g = some n) (ha : n.nick = some a) {l : List Ref}
    (hl : ∀ m ∈ l, m ∈ ch.nicks ∧ ∀ cn, s.membHeap m = some cn → cn.globalNick ≠ g) :
    findMember s (some s.info) a l = .ok none := by
  have test : ∀ m ∈ l, (do
      let cn ← s.memb m
      let n ← s.nick cn.globalNick
      ircEq (some s.info) n.nick (some a)) = .ok false := by
    intro m hm
    obtain ⟨cn, gn, b, hcn, hgn, hk, hb, -⟩ := h.member hc hch (hl m hm).1
    rw [NetworkState.memb_eq hcn, ok_bind, NetworkState.nick_eq hgn, ok_bind, hb, ircEq_fold,
      Except.ok.injEq, decide_eq_false_iff_not]
    exact fun e => (hl m hm).2 cn hcn (h.fold_inj hk hg hgn hn hb ha e)
  rw [Ctrlproxy.findMember, findFirst_eq_find? test]
  congr 1
  exact List.find?_eq_none.mpr fun _ _ => Bool.false_ne_true

/-- A name that finds a nick finds its twin in the state restored so far. -/
theorem findNetworkNick_twin (hinfo : s'.info = s.info)
    (hn : List.Forall₂ (NickTwin s s') (meRef :: s.nicks) (meRef :: s'.nicks)) {a : Str} {g : Ref}
    (h : findNetworkNick s a = .ok (some g)) :
    ∃ g', findNetworkNick s' a = .ok (some g') ∧ NickTwin s s' g g' := by
  have follows : Follows (findNetworkNick s a) (findNetworkNick s' a)
      (Option.Rel (NickTwin s s')) := by
    refine Follows.findFirst hn ?_
    intro r r' _ ht
    obtain ⟨n, n', hn, hn', e⟩ := ht.fields
    have hnick : n'.nick = n.nick := by rw [e]
    rw [NetworkState.nick_eq hn, NetworkState.nick_eq hn', ok_bind, ok_bind, hinfo, hnick]
    intro b hb
    exact ⟨b, hb, rfl⟩
  obtain ⟨o, ho, hrel⟩ := follows _ h
  cases hrel with
  | some ht => exact ⟨_, ho, ht⟩

theorem findMember_twin {c' : Ref} {l l' : List Ref} {a : Str}
    (hl : List.Forall₂ (MemberTwin s s' c') l l')
    (h : findMember s (some s.info) a l = .ok none) :
    findMember s' (some s.info) a l' = .ok none := by
  have follows : Follows (findMember s (some s.info) a l) (findMember s' (some s.info) a l')
      (Option.Rel (MemberTwin s s' c')) := by
    refine Follows.findFirst hl ?_
    intro m m' _ ht
    obtain ⟨cn, cn', hcn, hcn', -, -, ht⟩ := ht.fields
    obtain ⟨n, n', hn, hn', e⟩ := ht.fields
    have hnick : n'.nick = n.nick := by rw [e]
    rw [NetworkState.memb_eq hcn, NetworkState.memb_eq hcn', ok_bind, ok_bind,
      NetworkState.nick_eq hn, NetworkState.nick_eq hn', ok_bind, ok_bind, hnick]
    intro b hb
    exact ⟨b, hb, rfl⟩
  obtain ⟨o, ho, hrel⟩ := follows _ h
  cases hrel
  exact ho

/-- Reading a member adds a membership of the twin of its nick. -/
theorem findAddChannelNick_twin (h : Marshallable s) (hinfo : s'.info = s.info)
    (hn : List.Forall₂ (NickTwin s s') (meRef :: s.nicks) (meRef :: s'.nicks)) {c c' : Ref}
    (hc : c ∈ s.channels) {ch ch' : ChannelState} (hch : s.chanHeap c = some ch)
    (hch' : s'.chanHeap c' = some ch') (hw : ch'.network = true) {g : Ref} {n : NetworkNick}
    {a : Str} (hg : Known s g) (hgn : s.nickHeap g = some n) (ha : n.nick = some a) {l : List Ref}
    (hl : ∀ m ∈ l, m ∈ ch.nicks ∧ ∀ cn, s.membHeap m = some cn → cn.globalNick ≠ g)
    (hm : List.Forall₂ (MemberTwin s s' c') l ch'.nicks) :
    ∃ g' gn', NickTwin s s' g g' ∧ s'.nickHeap g' = some gn' ∧
      findAddChannelNick s' c' a = .ok (s'.next, addMemb s' c' g' ch' gn' modesClear) := by
  obtain ⟨hne, hp⟩ := (h.nicks g hg n hgn).2 a ha
  have hp' : isPrefix a.head? (some s'.info) = false := by rw [hinfo]; exact hp
  obtain ⟨g', hfind, ht⟩ := findNetworkNick_twin hinfo hn (h.findNetworkNick hg hgn ha)
  obtain ⟨n₀, gn', hn₀, hgn', e⟩ := ht.fields
  have hmember : findMember s' (some s'.info) a ch'.nicks = .ok none := by
    rw [hinfo]
    exact findMember_twin hm (h.findMember hc hch hg hgn ha hl)
  have hchan : findChannelNick s' c' a = .ok none := by
    rw [findChannelNick, NetworkState.chan_eq hch', ok_bind, NetworkState.infoFor, hw,
      if_pos rfl, stripPrefix_of_not hp', hmember]
  refine ⟨g', gn', ht, hgn', ?_⟩
  rw [findAddChannelNick, if_neg hne, NetworkState.chan_eq hch', ok_bind, if_neg (by simp [hw]),
    stripPrefix_of_not hp', hp']
  simp only [Bool.false_eq_true, if_false, hchan, ok_bind]
  rw [addChannelNick, findAddNetworkNick, hfind]
  simp only [ok_bind, pure_eq_ok, prefixModes, NetworkState.chan_eq hch', NetworkState.nick_eq hgn']

end

/-! ### The graph of the state restored so far -/

/-- `free_network_nick` never frees the user's own nick because of its query flag.  A snapshot may
say otherwise, and no function used here reads the flag. -/
def NetworkNick.asked (n : NetworkNick) : NetworkNick := { n with query := true }

/-- The state with the flag of the user's own nick set. -/
def asked (s : NetworkState) : NetworkState :=
  { s with nickHeap := fun r => if r = meRef then (s.nickHeap r).map (·.asked) else s.nickHeap r }

section
variable {s : NetworkState}

theorem asked_nick {g : Ref} {n : NetworkNick} (h : s.nickHeap g = some n) :
    (asked s).nickHeap g = some (if g = meRef then n.asked else n) := by
  simp only [asked, h]
  split <;> rfl

/-- A state whose user has the flag. -/
theorem asked_eq (h : ∀ n, s.nickHeap meRef = some n → n.query = true) : asked s = s := by
  have hheap : (asked s).nickHeap = s.nickHeap := by
    funext r
    by_cases hr : r = meRef
    · subst hr
      cases hn : s.nickHeap meRef with
      | none => simp [asked, hn]
      | some n =>
          have hq := h n hn
          obtain ⟨⟩ := n
          simp only at hq
          simp [asked, hn, NetworkNick.asked, hq]
    · simp [asked, hr]
  calc asked s = { s with nickHeap := (asked s).nickHeap } := rfl
    _ = s := by rw [hheap]

theorem asked_inv {g : Ref} {n : NetworkNick} (h : (asked s).nickHeap g = some n) :
    ∃ n', s.nickHeap g = some n' ∧ n'.channelNicks = n.channelNicks := by
  simp only [asked] at h
  split at h
  · obtain ⟨n', hn', rfl⟩ := Option.map_eq_some_iff.mp h
    exact ⟨n', hn', rfl⟩
  · exact ⟨n, h, rfl⟩

theorem asked_addMemb {c g : Ref} {ch : ChannelState} {gn : NetworkNick} {m : Modes} :
    asked (addMemb s c g ch gn m) =
      addMemb (asked s) c g ch (if g = meRef then gn.asked else gn) m := by
  have heap : (asked (addMemb s c g ch gn m)).nickHeap =
      (addMemb (asked s) c g ch (if g = meRef then gn.asked else gn) m).nickHeap := by
    funext r
    simp only [asked, addMemb, Heap.set_apply]
    by_cases hr : r = g
    · subst hr
      by_cases hme : r = meRef <;> simp [hme, NetworkNick.asked]
    · simp [hr]
  simp only [asked, addMemb] at heap ⊢
  rw [heap]

theorem asked_addNick {n : NetworkNick} (h : s.next ≠ meRef) :
    asked (addNick s n) = addNick (asked s) n := by
  have heap : (asked (addNick s n)).nickHeap = (addNick (asked s) n).nickHeap := by
    funext r
    simp only [asked, addNick, Heap.set_apply]
    by_cases hr : r = s.next
    · subst hr
      simp [h]
    · simp [hr]
  simp only [asked, addNick] at heap ⊢
  rw [heap]

theorem asked_setMe (v : NetworkNick) : asked (s.setNick meRef v) = s.setNick meRef v.asked := by
  have heap : (asked (s.setNick meRef v)).nickHeap = (s.setNick meRef v.asked).nickHeap := by
    funext r
    simp only [asked, NetworkState.setNick_nickHeap, Heap.set_apply]
    by_cases hr : r = meRef <;> simp [hr]
  simp only [asked, NetworkState.setNick] at heap ⊢
  rw [heap]

theorem Graph.membership_of_asked (h : Graph (asked s)) : Membership s := by
  have hm := h.membership
  refine ⟨?_, ?_, hm.nicks_once, hm.channels_once, ?_⟩
  · intro c hc
    obtain ⟨ch, hch, hw, hmem⟩ := hm.members c hc
    refine ⟨ch, hch, hw, fun m hmm => ?_⟩
    obtain ⟨cn, gn, hcn, hchan, hk, hgn, hcount, hcount'⟩ := hmem m hmm
    obtain ⟨gn', hgn', e⟩ := asked_inv hgn
    exact ⟨cn, gn', hcn, hchan, hk, hgn', hcount, e ▸ hcount'⟩
  · intro g hg
    obtain ⟨gn, hgn, hmem⟩ := hm.memberships g hg
    obtain ⟨gn', hgn', e⟩ := asked_inv hgn
    exact ⟨gn', hgn', fun m hmm => hmem m (e ▸ hmm)⟩
  · obtain ⟨me, hme⟩ := hm.me_live
    obtain ⟨me', hme', -⟩ := asked_inv hme
    exact ⟨me', hme'⟩

end

/-! ### Reading the members of a channel -/

/-- What is restored when the channels in `acc` and `j` members of the channel at `c'` were read;
`done` and `ch` are what these channels were written from. -/
structure Reading (s nst : NetworkState) (done acc : List Ref) (ch : ChannelState) (c' : Ref)
    (j : ℕ) : Prop where
  info : nst.info = s.info
  nicks : List.Forall₂ (NickTwin s nst) (meRef :: s.nicks) (meRef :: nst.nicks)
  older : List.Forall₂ (ChannelTwin s nst) done acc
  chan : ∃ ch', nst.chanHeap c' = some ch' ∧ ch' = readChannel ch ch' ∧
    List.Forall₂ (MemberTwin s nst c') (ch.nicks.take j) ch'.nicks
  graph : Graph (asked { nst with channels := acc ++ [c'] })

section
variable {s nst : NetworkState} {read : LineReader} {level : ℕ} {c c' : Ref} {ch : ChannelState}
  {done acc : List Ref} {j : ℕ}

theorem grown_addMemb {ch' : ChannelState} {g : Ref} {gn : NetworkNick} {m : Modes}
    (hfresh : nst.membHeap nst.next = none) (hgn : nst.nickHeap g = some gn) :
    Grown c' nst (addMemb nst c' g ch' gn m) where
  nicks := rfl
  nick := by
    intro x n hn
    by_cases hx : x = g
    · subst hx
      rw [hgn] at hn
      cases hn
      exact ⟨_, Heap.set_same _ _ _, rfl⟩
    · exact ⟨n, (Heap.set_other hx).trans hn, rfl⟩
  memb := by
    intro x cn hx
    refine (Heap.set_other ?_).trans hx
    rintro rfl
    rw [hfresh] at hx
    cases hx
  chan := fun x hx => Heap.set_other hx

theorem readChannel_setNicks {ch' : ChannelState} (e : ch' = readChannel ch ch') (l : List Ref) :
    { ch' with nicks := l } = readChannel ch { ch' with nicks := l } :=
  congrArg (fun c : ChannelState => { c with nicks := l }) e

/-- An added member keeps what was restored, and restores the next member. -/
theorem Reading.addMemb (hr : Reading s nst done acc ch c' j) {ch' : ChannelState}
    (hch' : nst.chanHeap c' = some ch') {m g' : Ref} {cn : ChannelNick} {gn' : NetworkNick}
    (hj : ch.nicks[j]? = some m) (hcn : s.membHeap m = some cn)
    (ht : NickTwin s nst cn.globalNick g') (hgn' : nst.nickHeap g' = some gn') :
    Reading s (addMemb nst c' g' ch' gn' cn.modes) done acc ch c' (j + 1) := by
  have hfresh : nst.membHeap nst.next = none := (hr.graph.fresh nst.next le_rfl).2.2
  have hg : Grown c' nst (Ctrlproxy.addMemb nst c' g' ch' gn' cn.modes) :=
    grown_addMemb hfresh hgn'
  have hacc : ∀ x ∈ acc, x ≠ c' := by
    rintro x hx rfl
    exact (List.nodup_append.mp hr.graph.channels_nodup).2.2 x hx x (List.mem_singleton_self x) rfl
  refine ⟨hr.info, hr.nicks.imp fun _ _ h => h.grown hg, ?_, ?_, ?_⟩
  · obtain ⟨hlen, hz⟩ := List.forall₂_iff_zip.mp hr.older
    refine List.forall₂_iff_zip.mpr ⟨hlen, fun hab => ?_⟩
    exact (hz hab).grown hg (hacc _ (List.of_mem_zip hab).2)
  · obtain ⟨ch₀, hch₀, e, hmem⟩ := hr.chan
    rw [hch'] at hch₀
    cases hch₀
    refine ⟨_, Heap.set_same _ _ _, readChannel_setNicks e _, ?_⟩
    rw [List.take_add_one, hj]
    exact forall₂_snoc (hmem.imp fun _ _ h => h.grown hg)
      ⟨cn, _, hcn, Heap.set_same _ _ _, rfl, rfl, ht.grown hg⟩
  · have hk : Known (asked { nst with channels := acc ++ [c'] }) g' :=
      List.mem_cons.mp (List.of_mem_zip ht.place).2
    have := hr.graph.addMemb (m := cn.modes) (List.mem_append_right _ (List.mem_singleton_self c')) hk
      hch' (asked_nick hgn')
    rw [← asked_addMemb] at this
    exact this

/-- Reading one member. -/
theorem Reading.member (h : Marshallable s) (hc : c ∈ s.channels) (hch : s.chanHeap c = some ch)
    (hr : Reading s nst done acc ch c' j) {gn : NetworkNick} {a : Str} {m : Ref}
    {cn : ChannelNick} (hj : ch.nicks[j]? = some m) (hcn : s.membHeap m = some cn)
    (hk : Known s cn.globalNick) (hgn : s.nickHeap cn.globalNick = some gn) (ha : gn.nick = some a)
    (honce : ∀ x ∈ ch.nicks.take j, ∀ cn', s.membHeap x = some cn' →
      cn'.globalNick ≠ cn.globalNick) :
    ∃ nst₁ cn', findAddChannelNick nst c' a = .ok (nst.next, nst₁) ∧
      nst₁.membHeap nst.next = some cn' ∧
      Reading s (nst₁.setMemb nst.next { cn' with modes := cn.modes }) done acc ch c' (j + 1) := by
  obtain ⟨ch', hch', e, hmem⟩ := hr.chan
  have hw : ch'.network = true := by rw [e]; rfl
  obtain ⟨g', gn', ht, hgn', hfind⟩ := findAddChannelNick_twin h hr.info hr.nicks hc hch hch' hw hk
    hgn ha (fun x hx => ⟨List.mem_of_mem_take hx, honce x hx⟩) hmem
  refine ⟨_, _, hfind, Heap.set_same _ _ _, ?_⟩
  have hmodes : (Ctrlproxy.addMemb nst c' g' ch' gn' modesClear).setMemb nst.next
      { modes := cn.modes, globalNick := g', channel := c', lastUpdate := long0, lastFlags := none } =
      Ctrlproxy.addMemb nst c' g' ch' gn' cn.modes := by
    simp only [Ctrlproxy.addMemb, NetworkState.setMemb, Heap.set_set]
  rw [hmodes]
  exact hr.addMemb hch' hj hcn ht hgn'

/-- **The members of a channel are read back**, from the `j`-th on. -/
theorem pullMembers_ok (hread : ReadsLines read) (h : Marshallable s) (hc : c ∈ s.channels)
    (hch : s.chanHeap c = some ch)
    (honce : ch.nicks.Pairwise fun x y => ∀ cn cn', s.membHeap x = some cn →
      s.membHeap y = some cn' → cn.globalNick ≠ cn'.globalNick)
    (rest : Str) (k : ℕ) (hk : j + k = ch.nicks.length) (hr : Reading s nst done acc ch c' j) :
    ∃ nst', pullMembers read level c' j k nst
      (texts (memberText s level) j (ch.nicks.drop j) ++ rest) = .ok (true, nst', rest) ∧
      Reading s nst' done acc ch c' ch.nicks.length := by
  induction k generalizing j nst with
  | zero =>
      obtain rfl : j = ch.nicks.length := by omega
      exact ⟨nst, by simp [pullMembers, texts], hr⟩
  | succ k ih =>
      have hlt : j < ch.nicks.length := by omega
      have hj : ch.nicks[j]? = some ch.nicks[j] := List.getElem?_eq_getElem hlt
      obtain ⟨cn, gn, a, hcn, hgn, hkn, ha, hmodes, hnick⟩ :=
        h.member hc hch (List.mem_of_getElem? hj)
      have nick : Carries (marshallString read (str "nick") (level + 3)) (some a) _ :=
        marshallString_carries hread ⟨by decide, ha ▸ hnick.nick⟩
      have modes : Carries (marshallModes read (str "modes") (level + 3)) cn.modes _ :=
        marshallModes_carries hread (by decide) hmodes
      have hbefore : ∀ x ∈ ch.nicks.take j, ∀ cn', s.membHeap x = some cn' →
          cn'.globalNick ≠ cn.globalNick := by
        intro x hx cn' hcn'
        rw [← List.take_append_drop j ch.nicks, List.drop_eq_getElem_cons hlt] at honce
        exact (List.pairwise_append.mp honce).2.2 x hx _ List.mem_cons_self cn' cn hcn' hcn
      obtain ⟨nst₁, cn', hfind, hcn', hr'⟩ := hr.member h hc hch hj hcn hkn hgn ha hbefore
      obtain ⟨nst', hpull, hr''⟩ := ih (by omega) hr'
      refine ⟨nst', ?_, hr''⟩
      rw [List.drop_eq_getElem_cons hlt, texts, memberText_eq hcn hgn, ha]
      simp only [pullMembers, List.append_assoc, marshallStruct_pull hread (ascii_indexName 10 j),
        ok_bind, nick.pull, Bool.true_eq_false, if_false, Option.getD_some, hfind,
        NetworkState.memb_eq hcn', modes.pull]
      exact hpull

/-! ### Reading a channel -/

/-- What is restored when the channels in `acc` were read; `done` are those they were written
from. -/
structure Pulled (s nst : NetworkState) (done acc : List Ref) : Prop where
  info : nst.info = s.info
  nicks : List.Forall₂ (NickTwin s nst) (meRef :: s.nicks) (meRef :: nst.nicks)
  channels : List.Forall₂ (ChannelTwin s nst) done acc
  graph : Graph (asked { nst with channels := acc })

/-- A channel without members is added. -/
theorem Pulled.addChan (hp : Pulled s nst done acc) (ch v : ChannelState) :
    Reading s ({ nst with next := nst.next + 1 }.setChan nst.next
      { readChannel ch v with nicks := [] }) done acc ch nst.next 0 := by
  have hg : Grown nst.next nst ({ nst with next := nst.next + 1 }.setChan nst.next
      { readChannel ch v with nicks := [] }) :=
    ⟨rfl, fun g n hn => ⟨n, hn, rfl⟩, fun _ _ hm => hm, fun x hx => Heap.set_other hx⟩
  have hacc : ∀ x ∈ acc, x ≠ nst.next := fun x hx => (hp.graph.channel_lt hx).ne
  refine ⟨hp.info, hp.nicks.imp fun _ _ h => h.grown hg, ?_, ?_, ?_⟩
  · obtain ⟨hlen, hz⟩ := List.forall₂_iff_zip.mp hp.channels
    refine List.forall₂_iff_zip.mpr ⟨hlen, fun hab => ?_⟩
    exact (hz hab).grown hg (hacc _ (List.of_mem_zip hab).2)
  · exact ⟨_, Heap.set_same _ _ _, rfl, .nil⟩
  · exact hp.graph.addChan rfl rfl

/-- A channel is read when its members are. -/
theorem marshallChannelState_members {junk : Junk} {name : Str} (hread : ReadsLines read)
    (h : Marshallable s) (hc : c ∈ s.channels) (hch : s.chanHeap c = some ch) (hname : Ascii name)
    {nst' : NetworkState} {rest : Str}
    (hmembers : pullMembers read level nst.next 0 ch.nicks.length
      ({ nst with next := nst.next + 1 }.setChan nst.next
        { readChannel ch (junk.chan nst.next) with nicks := [] })
      (texts (memberText s level) 0 ch.nicks ++ rest) = .ok (true, nst', rest)) (v : Ref) :
    marshallChannelState read junk name level .pull nst (channelText s level name c ++ rest) v =
      .ok (true, nst', rest, nst.next) := by
  have count : Carries (marshallInt read (str "count") (level + 2)) (ch.nicks.length : ℤ) _ :=
    marshallInt_carries hread (by decide) (h.members c hc ch hch).1
  have nicks : ∀ rest, marshallStruct read .pull (level + 1) (str "nicks")
      (fieldText (level + 1) (str "nicks") none ++ rest) = .ok (true, rest) :=
    marshallStruct_pull hread (by decide)
  rw [channelText_eq hch]
  simp only [marshallChannelState, membersText, List.append_assoc,
    marshallStruct_pull hread hname, ok_bind,
    (marshallChannelFields_carries hread (h.channels c hc ch hch)).2, nicks, count.pull,
    Int.toNat_natCast]
  simp only [hmembers, ok_bind]
  rfl

/-- **A channel is read back.** -/
theorem marshallChannelState_pull {junk : Junk} {name : Str} (hread : ReadsLines read)
    (h : Marshallable s) (honce : MembersOnce s) (hc : c ∈ s.channels) (hname : Ascii name)
    (hp : Pulled s nst done acc) (rest : Str) (v : Ref) :
    ∃ nst', marshallChannelState read junk name level .pull nst
      (channelText s level name c ++ rest) v = .ok (true, nst', rest, nst.next) ∧
      Pulled s nst' (done ++ [c]) (acc ++ [nst.next]) := by
  obtain ⟨ch, hch, -⟩ := h.membership.members c hc
  obtain ⟨nst', hpull, hr⟩ : ∃ nst', pullMembers read level nst.next 0 ch.nicks.length _
      (texts (memberText s level) 0 (ch.nicks.drop 0) ++ rest) = .ok (true, nst', rest) ∧
      Reading s nst' done acc ch nst.next ch.nicks.length :=
    pullMembers_ok hread h hc hch (honce c hc ch hch) rest ch.nicks.length (Nat.zero_add _)
      (hp.addChan ch (junk.chan nst.next))
  refine ⟨nst', marshallChannelState_members hread h hc hch hname hpull v, ?_⟩
  obtain ⟨ch', hch', e, hmem⟩ := hr.chan
  rw [List.take_length] at hmem
  exact ⟨hr.info, hr.nicks, forall₂_snoc hr.older ⟨ch, ch', hch, hch', e, hmem⟩, hr.graph⟩

/-! ### Reading the nicks -/

/-- What is restored when the nicks in `acc` were read; `done` are those they were written
from. -/
structure PulledNicks (s nst : NetworkState) (done acc : List Ref) : Prop where
  info : nst.info = s.info
  channels : nst.channels = []
  fields : List.Forall₂ (SameFieldsAt s nst) (meRef :: done) (meRef :: acc)
  graph : Graph (asked { nst with nicks := acc })

/-- **A nick is read back.** -/
theorem marshallNetworkNickP_pull {junk : Junk} {name : Str} (hread : ReadsLines read)
    (hname : Ascii name) {g : Ref} {n : NetworkNick} (hn : s.nickHeap g = some n)
    (hw : NickWritable n) (hp : PulledNicks s nst done acc) (rest : Str) (v : Ref) :
    ∃ nst', marshallNetworkNickP read junk name level .pull nst
      (nickTextAt s level name g ++ rest) v = .ok (true, nst', rest, nst.next) ∧
      PulledNicks s nst' (done ++ [g]) (acc ++ [nst.next]) := by
  have hpos : meRef < nst.next := hp.graph.known_lt (.inl rfl)
  rw [nickTextAt_eq hn]
  simp only [marshallNetworkNickP, (marshallNetworkNick_carries hread hname hw).2, ok_bind]
  refine ⟨_, rfl, hp.info, hp.channels, ?_, ?_⟩
  · rw [← List.cons_append, ← List.cons_append]
    refine forall₂_snoc ?_ ⟨n, _, hn, Heap.set_same _ _ _, rfl⟩
    obtain ⟨hlen, hz⟩ := List.forall₂_iff_zip.mp hp.fields
    refine List.forall₂_iff_zip.mpr ⟨hlen, fun {g g'} hab => ?_⟩
    obtain ⟨n, n', hn, hn', e⟩ := hz hab
    have hne : g' ≠ nst.next :=
      (hp.graph.known_lt (List.mem_cons.mp (List.of_mem_zip hab).2)).ne
    exact ⟨n, n', hn, (Heap.set_other hne).trans hn', e⟩
  · have := hp.graph.addNick (n := { n with hops := (junk.nick nst.next).hops, channelNicks := [] })
      rfl
    rw [← asked_addNick (s := { nst with nicks := acc }) hpos.ne'] at this
    exact this

end

/-! ### Reading a state -/

/-- A pair in its place among the nicks. -/
theorem forall₂_place {α β : Type} {R : α → β → Prop} {l : List α} {l' : List β}
    (h : List.Forall₂ R l l') : List.Forall₂ (fun a b => (a, b) ∈ l.zip l' ∧ R a b) l l' := by
  obtain ⟨hlen, hz⟩ := List.forall₂_iff_zip.mp h
  exact List.forall₂_iff_zip.mpr ⟨hlen, fun hab => ⟨hab, hz hab⟩⟩

/-- The state `MARSHALL_PULL` starts from, with the user's own nick read. -/
theorem pulledNicks_start {s : NetworkState} (h : Marshallable s) {me : NetworkNick}
    (hme : s.nickHeap meRef = some me) (k : ℤ) :
    PulledNicks s ((networkStateInit [] [] []).setNick meRef
      { me with hops := k, channelNicks := [] }) [] [] := by
  refine ⟨h.info.symm, rfl, 
    .cons ⟨me, { me with hops := k, channelNicks := [] }, hme, ?_, rfl⟩ .nil, ?_⟩
  · rw [NetworkState.setNick_nickHeap, Heap.set_same]
  · obtain ⟨me₀, hme₀⟩ : ∃ me₀, (networkStateInit [] [] []).nickHeap meRef = some me₀ ∧
        me₀.channelNicks = [] := ⟨_, rfl, rfl⟩
    have hg : Graph ((networkStateInit [] [] []).setNick meRef
        (NetworkNick.asked { me with hops := k, channelNicks := [] })) :=
      (networkStateInit_graph [] [] []).setNick hme₀.1 hme₀.2.symm (fun _ => rfl)
    rw [← asked_setMe] at hg
    exact hg

/-- A state is read when its lists are. -/
theorem marshallNetworkState_lists {read : LineReader} {junk : Junk} {s : NetworkState}
    (hread : ReadsLines read) (h : Marshallable s) {me me₀ n' : NetworkNick}
    (hme : s.nickHeap meRef = some me) (fresh : (networkStateInit [] [] []).nick meRef = .ok me₀)
    {nst nst' : NetworkState} {acc acc' : List Ref} {t rest : Str}
    (hnicks : marshallGList read 0 (marshallNetworkNickP read junk) (str "nicks") 0 .pull
      ((networkStateInit [] [] []).setNick meRef { me with hops := me₀.hops, channelNicks := [] })
      (listText (fun i => nickTextAt s 1 (indexName 20 i)) 0 (str "nicks") s.nicks ++
        (listText (fun i => channelText s 1 (indexName 20 i)) 0 (str "channels") s.channels ++
          rest)) [] = .ok (true, nst, t, acc))
    (hchannels : marshallGList read 0 (marshallChannelState read junk) (str "channels") 0 .pull
      { nst with nicks := acc } t nst.channels = .ok (true, nst', rest, acc'))
    (hn' : nst'.nickHeap meRef = some n') (hnamed : n'.nick ≠ none) :
    marshallNetworkState read junk .pull (stateText s ++ rest) (networkStateInit [] [] []) =
      .ok (true, rest, { nst' with channels := acc' }) := by
  have hmew := (h.nicks meRef (.inl rfl) me hme).1
  have hname : Ascii (str "me") := by decide
  have final : ({ nst' with channels := acc' } : NetworkState).nick meRef = .ok n' :=
    NetworkState.nick_eq hn'
  have empty : ∀ v, ((networkStateInit [] [] []).setNick meRef v).nicks = [] := fun _ => rfl
  rw [stateText, nickTextAt_eq hme]
  simp only [marshallNetworkState, fresh, ok_bind, if_true, List.append_assoc,
    (marshallNetworkNick_carries hread hname hmew).2, empty]
  simp only [hnicks, ok_bind, hchannels, final, if_neg hnamed]
  rfl

/-- What `MARSHALL_PULL` makes of the text of a state in a fresh state, with the graph it builds. -/
theorem marshallNetworkState_graph {read : LineReader} {junk : Junk} {s : NetworkState}
    (hread : ReadsLines read) (h : Marshallable s) (honce : MembersOnce s) (rest : Str) :
    ∃ s', marshallNetworkState read junk .pull (stateText s ++ rest) (networkStateInit [] [] []) =
      .ok (true, rest, s') ∧ Restored s s' ∧ Graph (asked s') := by
  obtain ⟨me, hme⟩ := h.membership.me_live
  obtain ⟨me₀, fresh⟩ : ∃ me₀, (networkStateInit [] [] []).nick meRef = .ok me₀ := ⟨_, rfl⟩
  have start := pulledNicks_start h hme me₀.hops
  -- the nicks
  obtain ⟨nst, acc, hnicks, hp⟩ : ∃ nst acc, marshallGList read 0 (marshallNetworkNickP read junk)
      (str "nicks") 0 .pull
      ((networkStateInit [] [] []).setNick meRef { me with hops := me₀.hops, channelNicks := [] })
      (listText (fun i => nickTextAt s 1 (indexName 20 i)) 0 (str "nicks") s.nicks ++
        (listText (fun i => channelText s 1 (indexName 20 i)) 0 (str "channels") s.channels ++
          rest)) [] = .ok (true, nst, _, acc) ∧
      PulledNicks s nst (s.nicks.take s.nicks.length) acc := by
    refine marshallGList_pull hread (by decide) h.nicks_length
      (fun i nst acc => PulledNicks s nst (s.nicks.take i) acc) ?_ start _
    intro i g nst acc rest hg hp
    obtain ⟨n, hn, -⟩ := h.membership.memberships g (.inr (List.mem_of_getElem? hg))
    have hw := (h.nicks g (.inr (List.mem_of_getElem? hg)) n hn).1
    obtain ⟨nst', hpull, hp'⟩ :=
      marshallNetworkNickP_pull hread (ascii_indexName 20 i) hn hw hp rest 0
    refine ⟨nst', nst.next, hpull, ?_⟩
    rw [List.take_add_one, hg]
    exact hp'
  rw [List.take_length] at hp
  have hp' : Pulled s { nst with nicks := acc } [] [] := by
    refine ⟨hp.info, ?_, .nil, ?_⟩
    · exact (forall₂_place hp.fields).imp fun _ _ hab => ⟨hab.1, hab.2⟩
    · have hnil : { nst with nicks := acc } = { nst with nicks := acc, channels := [] } := by
        rw [← hp.channels]
      have hg := hp.graph
      rw [hnil] at hg
      exact hg
  -- the channels
  obtain ⟨nst', acc', hchannels, hq⟩ : ∃ nst' acc', marshallGList read 0
      (marshallChannelState read junk) (str "channels") 0 .pull { nst with nicks := acc }
      (listText (fun i => channelText s 1 (indexName 20 i)) 0 (str "channels") s.channels ++ rest)
      nst.channels = .ok (true, nst', rest, acc') ∧
      Pulled s nst' (s.channels.take s.channels.length) acc' := by
    refine marshallGList_pull hread (by decide) h.channels_length
      (fun i nst acc => Pulled s nst (s.channels.take i) acc) ?_ hp' rest
    intro i c nst acc rest hc hp
    obtain ⟨nst', hpull, hp'⟩ := marshallChannelState_pull hread h honce (List.mem_of_getElem? hc)
      (ascii_indexName 20 i) hp rest 0
    refine ⟨nst', nst.next, hpull, ?_⟩
    rw [List.take_add_one, hc]
    exact hp'
  rw [List.take_length] at hq
  obtain ⟨hme', hnicks'⟩ := List.forall₂_cons.mp hq.nicks
  obtain ⟨n, n', hn, hn', e⟩ := hme'.fields
  rw [hme] at hn
  cases hn
  have hnamed : n'.nick ≠ none := by
    rw [e]
    exact (h.nicks meRef (.inl rfl) me hme).1.named
  refine ⟨_, marshallNetworkState_lists hread h hme fresh hnicks hchannels hn' hnamed, ?_, hq.graph⟩
  refine ⟨⟨hme'.place, hme'.fields⟩, ?_, ?_, hq.graph.membership_of_asked⟩
  · exact hnicks'.imp fun _ _ ht => ⟨ht.place, ht.fields⟩
  · refine hq.channels.imp fun _ _ hc => ?_
    obtain ⟨ch, ch', hch, hch', e, hm⟩ := hc.fields
    refine ⟨ch, ch', hch, hch', e, hm.imp fun _ _ ht => ?_⟩
    obtain ⟨cn, cn', hcn, hcn', e, e', ht⟩ := ht.fields
    exact ⟨cn, cn', hcn, hcn', e, e', ht.place, ht.fields⟩

/-- **Snapshot round trip.** What `MARSHALL_PULL` makes of the text of a state in a fresh state is
the state restored, if no channel lists a nick twice; nothing of the text is left. -/
theorem marshallNetworkState_pull {read : LineReader} {junk : Junk} {s : NetworkState}
    (hread : ReadsLines read) (h : Marshallable s) (honce : MembersOnce s) (rest : Str) :
    ∃ s', marshallNetworkState read junk .pull (stateText s ++ rest) (networkStateInit [] [] []) =
      .ok (true, rest, s') ∧ Restored s s' := by
  obtain ⟨s', hpull, hr, -⟩ := marshallNetworkState_graph hread h honce rest
  exact ⟨s', hpull, hr⟩

end Ctrlproxy
