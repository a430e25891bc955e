import Ctrlproxy.State.Nicks

/-!
# State — which lines the state machine completes on

The column of `irc_commands` with the number of arguments and the checks in the handlers leave
lines on which a handler reads a string that is not there, fails an assertion or leaves a vector.
`Safe s l` names what such a line has: for each handler, what it does not check.  On a whole state,
in which every known nick has a name and every entry of a list of masks has its mask (`Whole`),
every handler returns on a safe line and leaves the state whole.
-/

namespace Ctrlproxy
open Outcome

/-! ### Whole states -/

/-- Every mask of the lists of a channel is there. -/
def MasksGiven (ch : ChannelState) : Prop :=
  ∀ i, ∀ e ∈ ch.chanmodeNicklist i, e.hostmask ≠ none

/-- A consistent state that left no nick without a name and no list entry without a mask. -/
structure Whole (s : NetworkState) : Prop where
  graph : Graph s
  named : ∀ g, Known s g → ∃ a, nameOf s g = some a
  masks : ∀ r ch, s.chanHeap r = some ch → MasksGiven ch

section
variable {s s' : NetworkState}

theorem Trim.masks (e : Trim s s') (h : ∀ r ch, s.chanHeap r = some ch → MasksGiven ch) :
    ∀ r ch, s'.chanHeap r = some ch → MasksGiven ch := by
  cases e with
  | query _ => exact h
  | unlink _ _ _ hch _ =>
      have hm := h _ _ hch
      exact Heap.forall_set h hm
  | dropNick _ _ _ => exact h
  | dropChan _ _ _ => exact fun r ch hr => h r ch (Heap.of_del hr)

theorem Trim.whole (e : Trim s s') (h : Whole s) : Whole s' where
  graph := e.graph h.graph
  named := by
    intro g hg
    obtain ⟨hk, hn⟩ := e.names h.graph hg
    rw [hn]
    exact h.named g hk
  masks := e.masks h.masks

theorem Trims.whole (e : Trims s s') (h : Whole s) : Whole s' :=
  e.keeps Trim.whole h

theorem Whole.setNick (h : Whole s) {r : Ref} {n n' : NetworkNick} {x : Str}
    (hr : s.nickHeap r = some n) (hx : n'.nick = some x) (hc : n'.channelNicks = n.channelNicks)
    (hq : n.query = true → n'.query = true) : Whole (s.setNick r n') where
  graph := h.graph.setNick hr hc hq
  named := by
    intro g hg
    by_cases e : g = r
    · subst e
      exact ⟨x, nameOf_set_same.trans hx⟩
    · rw [nameOf_set_other e]
      exact h.named g hg
  masks := h.masks

theorem Whole.setChan (h : Whole s) {r : Ref} {c c' : ChannelState} (hr : s.chanHeap r = some c)
    (hn : c'.nicks = c.nicks) (hw : c'.network = c.network)
    (hm : MasksGiven c → MasksGiven c') : Whole (s.setChan r c') :=
  ⟨h.graph.setChan hr hn hw, h.named, Heap.forall_set h.masks (hm (h.masks r c hr))⟩

theorem Whole.setMemb (h : Whole s) {r : Ref} {m m' : ChannelNick} (hr : s.membHeap r = some m)
    (hc : m'.channel = m.channel) (hg : m'.globalNick = m.globalNick) : Whole (s.setMemb r m') :=
  ⟨h.graph.setMemb hr hc hg, h.named, h.masks⟩

theorem Whole.addChan (h : Whole s) (name : Str) :
    Whole (addChan s { ircChannelStateNew name with network := true }) :=
  ⟨h.graph.addChan rfl rfl, h.named, Heap.forall_set h.masks fun _ _ he => by cases he⟩

theorem Whole.addNick (h : Whole s) (name : Str) : Whole (addNick s (newNetworkNick name)) where
  graph := h.graph.addNick rfl
  named := by
    rintro g (rfl | hg)
    · obtain ⟨a, ha⟩ := h.named meRef (.inl rfl)
      exact ⟨a, (nameOf_congr (Heap.set_other (h.graph.known_lt (.inl rfl)).ne)).trans ha⟩
    · rcases List.mem_append.mp hg with hg | hg
      · obtain ⟨a, ha⟩ := h.named g (.inr hg)
        exact ⟨a, (nameOf_congr (Heap.set_other (h.graph.known_lt (.inr hg)).ne)).trans ha⟩
      · rw [List.mem_singleton.mp hg, nameOf]
        exact ⟨name, congrArg (Option.bind · _) (Heap.set_same _ _ _)⟩
  masks := h.masks

theorem Whole.addMemb (h : Whole s) {c g : Ref} {ch : ChannelState} {gn : NetworkNick}
    (modes : Modes) (hc : c ∈ s.channels) (hg : Known s g) (hch : s.chanHeap c = some ch)
    (hgn : s.nickHeap g = some gn) : Whole (addMemb s c g ch gn modes) where
  graph := h.graph.addMemb hc hg hch hgn
  named := by
    intro x hx
    rw [nameOf_keep (s := s) rfl hgn (by rfl)]
    exact h.named x hx
  masks := by
    have hm := h.masks c ch hch
    exact Heap.forall_set h.masks hm

theorem Whole.announce (h : Whole s) (i : NetworkInfo) : Whole { s with info := i } :=
  ⟨h.graph.announce i, h.named, h.masks⟩

/-- A known nick, with its name. -/
theorem Whole.nick (h : Whole s) {g : Ref} (hg : Known s g) :
    ∃ n a, s.nickHeap g = some n ∧ n.nick = some a := by
  obtain ⟨n, hn, -⟩ := h.graph.nick_live g hg
  obtain ⟨a, ha⟩ := h.named g hg
  exact ⟨n, a, hn, (nameOf_eq hn).symm.trans ha⟩

end

/-! ### Arguments and searches -/

section
variable {s : NetworkState} {l : IrcLine}

theorem IrcLine.argStr_total {i : ℕ} (h : i < l.argc) :
    Total (l.argStr i) (fun w => l.args[i]? = some w) := by
  have hx : l.args[i]? = some l.args[i] := List.getElem?_eq_getElem h
  unfold IrcLine.argStr
  rw [if_pos h.le, hx]
  rfl

theorem IrcLine.arg_total {i : ℕ} (h : i ≤ l.argc) :
    Total (l.arg i) (fun w => l.args[i]? = w) := by
  unfold IrcLine.arg
  rw [if_pos h]
  rfl

theorem ircEq_total (info : Option NetworkInfo) (a b : Str) :
    Total (ircEq info (some a) (some b)) (fun t => t = decide (irccmpStr (casemapOf info) a b = 0)) :=
  rfl

theorem findChannel_total (h : Graph s) (name : Str) :
    Total (findChannel s name) (fun r => ∀ c ∈ r, c ∈ s.channels) := by
  refine (findFirst_ensures fun r hr => ?_).imp fun r hr c hc => (hr c hc).1
  obtain ⟨ch, hch, -⟩ := h.chan_live r hr
  rw [NetworkState.chan_eq hch]
  trivial

theorem findNetworkNick_total (h : Whole s) (name : Str) :
    Total (findNetworkNick s name) (fun r => ∀ g ∈ r, Known s g) := by
  refine (findFirst_ensures fun r hr => ?_).imp fun r hr g hg => List.mem_cons.mp (hr g hg).1
  obtain ⟨n, a, hn, ha⟩ := h.nick (List.mem_cons.mp hr)
  rw [NetworkState.nick_eq hn, ok_bind, ha]
  trivial

theorem findChannelNick_total (h : Whole s) {c : Ref} {ch : ChannelState} (hc : c ∈ s.channels)
    (hch : s.chanHeap c = some ch) (name : Str) :
    Total (findChannelNick s c name) (fun r => ∀ m ∈ r, m ∈ ch.nicks) := by
  rw [findChannelNick_eq h.graph hc hch]
  refine (findFirst_ensures fun r hr => ?_).imp fun r hr m hm => (hr m hm).1
  obtain ⟨cn, gn, hl, -⟩ := h.graph.link_of_chan hc hch hr
  obtain ⟨n, a, hn, ha⟩ := h.nick hl.known
  rw [NetworkState.memb_eq hl.memb, ok_bind, NetworkState.nick_eq hn, ok_bind, ha]
  trivial

theorem findAddChannel_total (h : Whole s) (name : Str) :
    Total (findAddChannel s name)
      (fun r => Whole r.2 ∧ r.1 ∈ r.2.channels ∧ r.2.info = s.info) := by
  refine (findChannel_total h.graph name).bind fun r hr => ?_
  cases r with
  | some c => exact ⟨h, hr c rfl, rfl⟩
  | none =>
      exact ⟨h.addChan name, List.mem_append_right _ (List.mem_singleton_self _), rfl⟩

/-- The name is that of a known nick, or one `find_add_network_nick` makes a nick for. -/
def Nameable (s : NetworkState) (name : Str) : Prop :=
  isPrefix name.head? (some s.info) = true → findNetworkNick s name ≠ .ok none

theorem nameable_of_not {name : Str} (h : isPrefix name.head? (some s.info) = false) :
    Nameable s name := by
  intro e
  rw [h] at e
  cases e

theorem findAddNetworkNick_total (h : Whole s) {name : Str} (hp : Nameable s name) :
    Total (findAddNetworkNick s name) (fun r => Whole r.2 ∧ Known r.2 r.1 ∧ r.2.info = s.info ∧
      r.2.channels = s.channels ∧ r.2.chanHeap = s.chanHeap) := by
  refine (findNetworkNick_total h name).with_eq.bind ?_
  rintro r ⟨hr, hk⟩
  cases r with
  | some g => exact ⟨h, hk g rfl, rfl, rfl, rfl⟩
  | none =>
      dsimp only
      split
      · rename_i hpre
        exact hp hpre hr
      · refine ⟨h.addNick name, .inr ?_, rfl, rfl, rfl⟩
        exact List.mem_append_right _ (List.mem_singleton_self _)

theorem findAddChannelNick_total (h : Whole s) {c : Ref} (hc : c ∈ s.channels) {name : Str}
    (hne : name ≠ []) (hFF : ¬ PrefixFF s.info name)
    (hp : isPrefix (stripPrefix (some s.info) name).head? (some s.info) = false) :
    Total (findAddChannelNick s c name) (fun r => Whole r.2 ∧ r.2.info = s.info ∧
      r.2.channels = s.channels ∧ ∃ cn, r.2.membHeap r.1 = some cn ∧ Known r.2 cn.globalNick) := by
  obtain ⟨ch, hch, hw, -⟩ := h.graph.chan_live c hc
  unfold findAddChannelNick
  rw [if_neg hne, NetworkState.chan_eq hch, ok_bind, hw]
  simp only [Bool.true_eq_false, if_false]
  refine (findChannelNick_total h hc hch _).bind fun r hr => ?_
  cases r with
  | some m =>
      obtain ⟨cn, gn, hl, -⟩ := h.graph.link_of_chan hc hch (hr m rfl)
      exact ⟨h, rfl, rfl, cn, hl.memb, hl.known⟩
  | none =>
      refine (findAddNetworkNick_total h (nameable_of_not hp)).bind ?_
      rintro ⟨g, s₁⟩ ⟨h₁, hk, hi, hcs, hheap⟩
      have hFF' : PrefixFF s₁.info name → False := by
        rw [show s₁.info = s.info from hi]
        exact hFF
      have hchar : ∀ p : Option Byte, p = none ∨ p = name.head? →
          Total (prefixModes s₁.info p) (KeepsNul modesClear) :=
        fun p hp => prefixModes_ensures hp hFF'
      refine (hchar _ (by split <;> simp)).bind fun modes _ => ?_
      have hch₁ : s₁.chanHeap c = some ch := (congrFun hheap c).trans hch
      obtain ⟨gn, hgn, -⟩ := h₁.graph.nick_live g hk
      rw [NetworkState.chan_eq hch₁, ok_bind, NetworkState.nick_eq hgn]
      exact ⟨h₁.addMemb modes (hcs ▸ hc) hk hch₁ hgn, hi, hcs, _, Heap.set_same _ _ _, hk⟩

/-! ### Joining and leaving -/

theorem splitHostmask_name {n : NetworkNick} {a hm : Str} (ha : n.nick = some a)
    (hbang : chr '!' ∈ hm) : ∃ x, (networkNickSetHostmask n hm).nick = some x := by
  unfold networkNickSetHostmask
  split
  · exact ⟨a, ha⟩
  · exact ⟨_, splitHostmask_nick hbang⟩

theorem joinChannel_total (h : Whole s) {origin nick : Str} (hne : nick ≠ [])
    (hbang : chr '!' ∈ origin) (hFF : ¬ PrefixFF s.info nick)
    (hp : isPrefix (stripPrefix (some s.info) nick).head? (some s.info) = false) (name : Str) :
    Total (joinChannel origin nick s name) (fun s' => Whole s' ∧ s'.info = s.info) := by
  refine (findAddChannel_total h name).bind ?_
  rintro ⟨c, s₁⟩ ⟨h₁, hc, hi₁⟩
  replace hi₁ : s₁.info = s.info := hi₁
  refine (findAddChannelNick_total h₁ hc hne (hi₁ ▸ hFF) (hi₁ ▸ hp)).bind ?_
  rintro ⟨m, s₂⟩ ⟨h₂, hi₂, -, cn, hcn, hk⟩
  obtain ⟨n, a, hn, ha⟩ := h₂.nick hk
  obtain ⟨x, hx⟩ := splitHostmask_name ha hbang
  have h₃ := h₂.setNick hn hx (by simp) (by simp)
  obtain ⟨me, b, hme, hb⟩ := h₃.nick (.inl rfl)
  dsimp only at hcn hn hme ⊢
  rw [NetworkState.memb_eq hcn, ok_bind, NetworkState.modifyNick, NetworkState.nick_eq hn, ok_bind,
    pure_eq_ok, ok_bind, NetworkState.nick_eq hme, ok_bind, hb]
  exact ⟨h₃, hi₂.trans hi₁⟩

theorem handleJoin_total (h : Whole s) (hargc : 1 < l.argc)
    (hsafe : ∀ o, l.origin = some o → o.takeWhile (· ≠ chr '!') ≠ [] ∧ chr '!' ∈ o ∧
      isPrefix (stripPrefix (some s.info) (o.takeWhile (· ≠ chr '!'))).head? (some s.info) = false)
    (hFF : ∀ o, l.origin = some o → ¬ PrefixFF s.info (o.takeWhile (· ≠ chr '!'))) :
    Total (handleJoin s l) Whole := by
  unfold handleJoin lineGetNick
  cases ho : l.origin with
  | none => exact h
  | some o =>
      obtain ⟨hne, hbang, hp⟩ := hsafe o ho
      dsimp only
      rw [ok_bind]
      refine (IrcLine.argStr_total hargc).bind fun channels _ => ?_
      have loop := Ensures.foldlM (f := joinChannel o (o.takeWhile (· ≠ chr '!')))
        (l := gStrsplit channels (chr ',')) (b := s)
        (I := fun s' => Whole s' ∧ s'.info = s.info) (E := fun _ => False) ?_ ⟨h, rfl⟩
      · exact loop.imp fun _ => And.left
      rintro s' name - ⟨h', hi⟩
      exact (joinChannel_total h' hne hbang (hi ▸ hFF o ho) (hi ▸ hp) name).imp
        fun _ hs => ⟨hs.1, hs.2.trans hi⟩

theorem freeChannelNick_total (h : Whole s) {c m : Ref} {ch : ChannelState} (hc : c ∈ s.channels)
    (hch : s.chanHeap c = some ch) (hm : m ∈ ch.nicks) :
    Total (freeChannelNick s m) (fun s' => Whole s' ∧ s'.channels = s.channels) := by
  obtain ⟨cn, gn, hl, -⟩ := h.graph.link_of_chan hc hch hm
  exact ensures_of_eq_ok (freeChannelNick_eq h.graph hl)
    ⟨(removeMemb_trims h.graph hl).whole h, removeMemb_channels⟩

theorem leaveChannel_total (h : Whole s) {c : Ref} (hc : c ∈ s.channels) (nick : Str) :
    Total (leaveChannel s c nick) Whole := by
  obtain ⟨me, a, hme, ha⟩ := h.nick (.inl rfl)
  unfold leaveChannel
  rw [NetworkState.nick_eq hme, ok_bind, ha]
  refine (ircEq_total _ _ _).bind fun t _ => ?_
  split
  · obtain ⟨s', hs', he⟩ := freeChannelState_ok h.graph hc
    exact ensures_of_eq_ok hs' (he.whole h)
  · exact h

theorem partChannel_total (h : Whole s) (nick name : Str) :
    Total (partChannel nick s name) Whole := by
  refine (findChannel_total h.graph name).bind fun r hr => ?_
  cases r with
  | none => exact h
  | some c =>
      obtain ⟨ch, hch, -⟩ := h.graph.chan_live c (hr c rfl)
      refine (findChannelNick_total h (hr c rfl) hch nick).bind fun m hm => ?_
      have hfree : Total (freeFound s m) (fun s' => Whole s' ∧ s'.channels = s.channels) := by
        cases m with
        | none => exact ⟨h, rfl⟩
        | some m => exact freeChannelNick_total h (hr c rfl) hch (hm m rfl)
      refine hfree.bind ?_
      rintro s₁ ⟨h₁, hcs⟩
      exact leaveChannel_total h₁ (hcs ▸ hr c rfl) nick

theorem handlePart_total (h : Whole s) (hargc : 1 < l.argc) : Total (handlePart s l) Whole := by
  unfold handlePart lineGetNick
  cases l.origin with
  | none => exact h
  | some o =>
      dsimp only
      rw [ok_bind]
      refine (IrcLine.argStr_total hargc).bind fun channels _ => ?_
      exact Ensures.foldlM (fun s' name _ h' => partChannel_total h' _ name) h

theorem kickChannel_total (h : Whole s) (p : Str × Str) : Total (kickChannel s p) Whole := by
  refine (findChannel_total h.graph p.1).bind fun r hr => ?_
  cases r with
  | none => exact h
  | some c =>
      obtain ⟨ch, hch, -⟩ := h.graph.chan_live c (hr c rfl)
      refine (findChannelNick_total h (hr c rfl) hch p.2).bind fun m hm => ?_
      cases m with
      | none => exact h
      | some m =>
          refine (freeChannelNick_total h (hr c rfl) hch (hm m rfl)).bind ?_
          rintro s₁ ⟨h₁, hcs⟩
          exact leaveChannel_total h₁ (hcs ▸ hr c rfl) p.2

theorem handleKick_total (h : Whole s) (hargc : 2 < l.argc) : Total (handleKick s l) Whole := by
  unfold handleKick
  cases l.origin with
  | none => exact h
  | some o =>
      refine (IrcLine.argStr_total (Nat.lt_of_succ_lt hargc)).bind fun channels _ => ?_
      refine (IrcLine.argStr_total hargc).bind fun nicks _ => ?_
      exact Ensures.foldlM (fun s' p _ h' => kickChannel_total h' p) h

theorem handleQuit_total (h : Whole s) : Total (handleQuit s l) Whole := by
  unfold handleQuit lineGetNick
  cases l.origin with
  | none => exact h
  | some o =>
      dsimp only
      rw [ok_bind]
      refine (findNetworkNick_total h _).bind fun r hr => ?_
      cases r with
      | none => exact h
      | some g =>
          dsimp only
          split
          · obtain ⟨me, a, hme, -⟩ := h.nick (.inl rfl)
            obtain ⟨s', hs', he, -⟩ :=
              freeMemberships_ok h.graph (.inl rfl) hme (h.graph.me_query me hme)
            rw [NetworkState.nick_eq hme]
            exact ensures_of_eq_ok hs' (he.whole h)
          · rename_i hne
            obtain ⟨s', hs', he⟩ := freeNetworkNick_ok h.graph ((hr g rfl).resolve_left hne)
            exact ensures_of_eq_ok hs' (he.whole h)

/-! ### Fields of a channel -/

/-- A channel of the state is changed in fields that are neither its members nor its lists of
masks. -/
theorem modifyChan_total (h : Whole s) {c : Ref} (hc : c ∈ s.channels)
    {f : ChannelState → ChannelState} (hf : KeepsChannel f)
    (hm : ∀ ch, MasksGiven ch → MasksGiven (f ch)) :
    Total (s.modifyChan c f)
      (fun s' => Whole s' ∧ s'.channels = s.channels ∧ s'.info = s.info) := by
  obtain ⟨ch, hch, -⟩ := h.graph.chan_live c hc
  rw [NetworkState.modifyChan, NetworkState.chan_eq hch]
  exact ⟨h.setChan hch (hf.nicks ch) (hf.network ch) (hm ch), rfl, rfl⟩

theorem handleTopic_total (h : Whole s) (hargc : 2 < l.argc)
    (hsafe : l.origin ≠ none → OnChannel s l 1) (now : Long) :
    Total (handleTopic now s l) Whole := by
  refine (IrcLine.argStr_total (Nat.lt_of_succ_lt hargc)).bind fun name hname => ?_
  refine (findChannel_total h.graph name).with_eq.bind ?_
  rintro r ⟨hr, hmem⟩
  unfold lineGetNick
  cases ho : l.origin with
  | none => exact h
  | some o =>
      cases r with
      | none =>
          obtain ⟨name', c, hname', hc⟩ := hsafe (by rw [ho]; exact Option.some_ne_none o)
          rw [hname] at hname'
          cases hname'
          rw [hr] at hc
          cases hc
      | some c =>
          refine (IrcLine.arg_total hargc.le).bind fun topic _ => ?_
          refine Ensures.imp (modifyChan_total h (hmem c rfl) ?_ fun _ => id) fun _ => And.left
          exact ⟨fun _ => rfl, fun _ => rfl, fun _ => rfl, fun _ => KeepsNul.refl _⟩

theorem handle332_total (h : Whole s) (hargc : 3 < l.argc) : Total (handle332 s l) Whole := by
  refine (IrcLine.argStr_total (Nat.lt_of_succ_lt hargc)).bind fun name _ => ?_
  refine (findChannel_total h.graph name).bind fun r hr => ?_
  cases r with
  | none => exact h
  | some c =>
      refine (IrcLine.arg_total hargc.le).bind fun topic _ => ?_
      refine Ensures.imp (modifyChan_total h (hr c rfl) ?_ fun _ => id) fun _ => And.left
      exact ⟨fun _ => rfl, fun _ => rfl, fun _ => rfl, fun _ => KeepsNul.refl _⟩

theorem handle333_total (h : Whole s) (hargc : 3 < l.argc)
    (hsafe : OnChannel s l 2 → 4 < l.argc) : Total (handle333 s l) Whole := by
  refine (IrcLine.argStr_total (Nat.lt_of_succ_lt hargc)).bind fun name hname => ?_
  refine (findChannel_total h.graph name).with_eq.bind ?_
  rintro r ⟨hr, hmem⟩
  cases r with
  | none => exact h
  | some c =>
      refine (IrcLine.argStr_total (hsafe ⟨name, c, hname, hr⟩)).bind fun time _ => ?_
      refine (IrcLine.arg_total hargc.le).bind fun by' _ => ?_
      refine Ensures.imp (modifyChan_total h (hmem c rfl) ?_ fun _ => id) fun _ => And.left
      exact ⟨fun _ => rfl, fun _ => rfl, fun _ => rfl, fun _ => KeepsNul.refl _⟩

theorem handleNoTopic_total (h : Whole s) (hargc : 1 < l.argc) :
    Total (handleNoTopic s l) Whole := by
  refine (IrcLine.argStr_total hargc).bind fun name _ => ?_
  refine (findChannel_total h.graph name).bind fun r hr => ?_
  cases r with
  | none => exact h
  | some c =>
      refine Ensures.imp (modifyChan_total h (hr c rfl) ?_ fun _ => id) fun _ => And.left
      exact ⟨fun _ => rfl, fun _ => rfl, fun _ => rfl, fun _ => KeepsNul.refl _⟩

theorem handleEndNames_total (h : Whole s) (hargc : 2 < l.argc) :
    Total (handleEndNames s l) Whole := by
  refine (IrcLine.argStr_total hargc).bind fun name _ => ?_
  refine (findChannel_total h.graph name).bind fun r hr => ?_
  cases r with
  | none => exact h
  | some c =>
      refine Ensures.imp (modifyChan_total h (hr c rfl) ?_ fun _ => id) fun _ => And.left
      exact ⟨fun _ => rfl, fun _ => rfl, fun _ => rfl, fun _ => KeepsNul.refl _⟩

theorem handle329_total (h : Whole s) (hargc : 3 < l.argc) : Total (handle329 s l) Whole := by
  refine (IrcLine.argStr_total (Nat.lt_of_succ_lt hargc)).bind fun name _ => ?_
  refine (findChannel_total h.graph name).bind fun r hr => ?_
  cases r with
  | none => exact h
  | some c =>
      refine (IrcLine.argStr_total hargc).bind fun time _ => ?_
      refine Ensures.imp (modifyChan_total h (hr c rfl) ?_ fun _ => id) fun _ => And.left
      exact ⟨fun _ => rfl, fun _ => rfl, fun _ => rfl, fun _ => KeepsNul.refl _⟩

theorem handle324_total (h : Whole s) (hargc : 3 < l.argc)
    (hFF : OnChannel s l 2 → ∀ w, l.args[3]? = some w → ¬ SignedFF w) :
    Total (handle324 s l) Whole := by
  refine (IrcLine.argStr_total (Nat.lt_of_succ_lt hargc)).bind fun name hname => ?_
  refine (findChannel_total h.graph name).with_eq.bind ?_
  rintro r ⟨hr, hmem⟩
  cases r with
  | none => exact h
  | some c =>
      refine (IrcLine.argStr_total hargc).bind fun w hw => ?_
      refine (string2mode_ensures (hFF ⟨name, c, hname, hr⟩ w hw) modesClear).bind ?_
      rintro ⟨modes, b⟩ hm
      refine Ensures.imp (modifyChan_total h (hmem c rfl) ?_ fun _ => id) fun _ => And.left
      exact ⟨fun _ => rfl, fun _ => rfl, fun _ => rfl, fun _ h => by cases hm h⟩

/-! ### Lists of masks -/

theorem MaskList.setStarted_masks (k : MaskList) (ch : ChannelState) (v : Bool) :
    (k.setStarted ch v).chanmodeNicklist = ch.chanmodeNicklist := by
  cases k <;> rfl

/-- An entry with a mask is added to a listing. -/
theorem addMask_masks (k : MaskList) (i : Fin MAXMODES) {mask : Option Str} (hm : mask ≠ none)
    (by' : Option Str) (at' : Long) {ch : ChannelState} (h : MasksGiven ch) :
    MasksGiven (addMask k i mask by' at' ch) := by
  intro j e he
  change e ∈ ModeArray.set _ _ _ j at he
  unfold ModeArray.set at he
  split at he
  · rcases List.mem_append.mp he with he | he
    · split at he
      · exact h i e he
      · cases he
    · rw [List.mem_singleton.mp he]
      exact hm
  · exact h j e he

theorem maskSetter_total (k : MaskList) (hargc : 3 < l.argc) :
    Total (maskSetter l k) (fun _ => True) := by
  unfold maskSetter
  split
  · refine (IrcLine.arg_total hargc).bind fun by' hby => ?_
    split
    · trivial
    · have hlt : 4 < l.args.length := by
        by_contra hge
        rw [List.getElem?_eq_none (not_lt.mp hge)] at hby
        cases hby
      exact (IrcLine.arg_total hlt).bind fun _ _ => trivial
  · trivial

theorem handleMaskEntry_total (h : Whole s) (k : MaskList) (hargc : 2 < l.argc)
    (hsafe : OnChannel s l 2 → 3 < l.argc) : Total (handleMaskEntry k s l) Whole := by
  refine (IrcLine.argStr_total hargc).bind fun name hname => ?_
  refine (findChannel_total h.graph name).with_eq.bind ?_
  rintro r ⟨hr, hmem⟩
  cases r with
  | none => exact h
  | some c =>
      have hlt := hsafe ⟨name, c, hname, hr⟩
      refine (modeSlot_ensures fun e => absurd e k.letter_slot).bind fun i _ => ?_
      refine (IrcLine.arg_total hlt.le).bind fun mask hmask => ?_
      have hgiven : mask ≠ none := by
        rw [← hmask, List.getElem?_eq_getElem hlt]
        exact Option.some_ne_none _
      refine (maskSetter_total k hlt).bind ?_
      rintro ⟨by', at'⟩ -
      have hk := k.keeps_setStarted true
      refine Ensures.imp (modifyChan_total h (hmem c rfl) ?_ fun _ => addMask_masks k i hgiven by' at')
        fun _ => And.left
      exact ⟨hk.name, hk.nicks, hk.network, hk.modes⟩

theorem handleEndMasks_total (h : Whole s) (k : MaskList) (hargc : 2 < l.argc) :
    Total (handleEndMasks k s l) Whole := by
  refine (IrcLine.argStr_total hargc).bind fun name _ => ?_
  refine (findChannel_total h.graph name).bind fun r hr => ?_
  cases r with
  | none => exact h
  | some c =>
      refine (modeSlot_ensures fun e => absurd e k.letter_slot).bind fun i _ => ?_
      have hk := k.keeps_setStarted false
      refine Ensures.imp (modifyChan_total h (hr c rfl) ?_ ?_) fun _ => And.left
      · exact ⟨hk.name, hk.nicks, hk.network, hk.modes⟩
      · intro ch hm j e he
        exact hm j e (by rw [← k.setStarted_masks ch false]; exact he)

/-! ### Names -/

theorem restartNames_total (h : Whole s) {c : Ref} (hc : c ∈ s.channels) :
    Total (restartNames s c)
      (fun s' => Whole s' ∧ s'.channels = s.channels ∧ s'.info = s.info) := by
  obtain ⟨ch, hch, -⟩ := h.graph.chan_live c hc
  unfold restartNames
  rw [NetworkState.chan_eq hch, ok_bind]
  split
  · exact ⟨h, rfl, rfl⟩
  · obtain ⟨s₁, hs₁, e₁, hcs₁, -⟩ := freeNames_ok h.graph hc hch
    have hi₁ : s₁.info = s.info := e₁.quiets.edits.info_eq
    rw [hs₁]
    refine Ensures.imp (modifyChan_total (e₁.whole h) (hcs₁ ▸ hc) ?_ fun _ => id)
      fun s' hs' => ⟨hs'.1, hs'.2.1.trans hcs₁, hs'.2.2.trans hi₁⟩
    exact ⟨fun _ => rfl, fun _ => rfl, fun _ => rfl, fun _ => KeepsNul.refl _⟩

theorem handleNamreply_total (h : Whole s) (hargc : 4 < l.argc)
    (hsafe : OnChannel s l 3 → NamesSafe s l) (hFF : ¬ NamesFF s l) :
    Total (handleNamreply s l) Whole := by
  have h3 : 3 < l.argc := Nat.lt_of_succ_lt hargc
  refine (IrcLine.argStr_total h3).bind fun chan hchan => ?_
  refine (findChannel_total h.graph chan).with_eq.bind ?_
  rintro r ⟨hr, hmem⟩
  cases r with
  | none => exact h
  | some c =>
      have hon : OnChannel s l 3 := ⟨chan, c, hchan, hr⟩
      refine (IrcLine.argStr_total hargc).bind fun names hnames => ?_
      refine (IrcLine.argStr_total (Nat.lt_of_succ_lt h3)).bind fun mode _ => ?_
      have hmode : KeepsChannel fun ch => { ch with mode := mode.head? } :=
        ⟨fun _ => rfl, fun _ => rfl, fun _ => rfl, fun _ => KeepsNul.refl _⟩
      refine (modifyChan_total h (hmem c rfl) hmode fun _ => id).bind ?_
      rintro s₁ ⟨h₁, hcs₁, hi₁⟩
      refine (restartNames_total h₁ (hcs₁ ▸ hmem c rfl)).bind ?_
      rintro s₂ ⟨h₂, hcs₂, hi₂⟩
      have hc₂ : c ∈ s₂.channels := hcs₂ ▸ hcs₁ ▸ hmem c rfl
      have loop := Ensures.foldlM (f := addName c) (l := gStrsplit names (chr ' ')) (b := s₂)
        (I := fun s' => Whole s' ∧ s'.channels = s₂.channels ∧ s'.info = s.info)
        (E := fun _ => False) ?_ ⟨h₂, rfl, hi₂.trans hi₁⟩
      · exact loop.imp fun _ => And.left
      rintro s' name hname ⟨h', hcs, hi⟩
      unfold addName
      split
      · exact ⟨h', hcs, hi⟩
      rename_i hne
      have hp := hsafe hon names hnames name hname
      have hno : ¬ PrefixFF s'.info name := by
        rw [hi]
        exact fun hFF' => hFF ⟨hon, names, hnames, name, hname, hFF'⟩
      rw [← hi] at hp
      refine (findAddChannelNick_total h' (hcs ▸ hc₂) hne hno hp).bind ?_
      rintro ⟨m, s''⟩ ⟨h'', hi'', hcs'', -⟩
      exact ⟨h'', hcs''.trans hcs, hi''.trans hi⟩

/-! ### Users -/

theorem handleWhoreply_total (h : Whole s) (hargc : 8 < l.argc)
    (hsafe : ∀ nick, l.args[6]? = some nick → Nameable s nick) (now : Long) :
    Total (handleWhoreply now s l) Whole := by
  have lt : ∀ {i}, i < 9 → i < l.argc := fun hi => hi.trans_le hargc
  refine (IrcLine.argStr_total (lt (by decide))).bind fun nick hnick => ?_
  refine (findAddNetworkNick_total h (hsafe nick hnick)).bind ?_
  rintro ⟨g, s₁⟩ ⟨h₁, hk, -⟩
  obtain ⟨n, a, hn, -⟩ := h₁.nick hk
  refine (IrcLine.argStr_total (lt (by decide))).bind fun username _ => ?_
  refine (IrcLine.argStr_total (lt (by decide))).bind fun host _ => ?_
  have h₂ : Whole (s₁.setNick g (networkNickSetData n nick username host)) :=
    h₁.setNick hn rfl (by simp) (by simp)
  dsimp only at hn ⊢
  rw [NetworkState.modifyNick, NetworkState.nick_eq hn, ok_bind, pure_eq_ok, ok_bind]
  refine (IrcLine.argStr_total hargc).bind fun trailing _ => ?_
  refine (IrcLine.argStr_total (lt (by decide))).bind fun server _ => ?_
  obtain ⟨n', a', hn', ha'⟩ := h₂.nick hk
  have h₃ : Whole (NetworkState.setNick _ g (whoreplyNick (toInt (strtol trailing 10).1)
      (strtol trailing 10).2 server n')) := h₂.setNick hn' ha' rfl id
  rw [NetworkState.modifyNick, NetworkState.nick_eq hn', ok_bind, pure_eq_ok, ok_bind]
  refine (IrcLine.argStr_total (lt (by decide))).bind fun name _ => ?_
  refine (findChannel_total h₃.graph name).bind fun r hr => ?_
  cases r with
  | none => exact h₃
  | some c =>
      obtain ⟨n'', a'', hn'', ha''⟩ := h₃.nick hk
      obtain ⟨ch, hch, -⟩ := h₃.graph.chan_live c (hr c rfl)
      dsimp only
      rw [NetworkState.nick_eq hn'', ok_bind, ha'']
      refine (findChannelNick_total h₃ (hr c rfl) hch a'').bind fun m hm => ?_
      cases m with
      | none => exact h₃
      | some m =>
          obtain ⟨cn, gn, hl, -⟩ := h₃.graph.link_of_chan (hr c rfl) hch (hm m rfl)
          dsimp only
          rw [NetworkState.memb_eq hl.memb, ok_bind]
          refine (IrcLine.arg_total (lt (by decide)).le).bind fun flags _ => ?_
          exact h₃.setMemb hl.memb rfl rfl

theorem handlePrivmsg_total (h : Whole s) (hargc : 2 < l.argc)
    (hsafe : ∀ o target me, l.origin = some o → l.args[1]? = some target →
      nameOf s meRef = some me → SameNick s target me →
        Nameable s (o.takeWhile (· ≠ chr '!'))) : Total (handlePrivmsg s l) Whole := by
  unfold handlePrivmsg lineGetNick
  cases ho : l.origin with
  | none => exact h
  | some o =>
      refine (IrcLine.argStr_total (Nat.lt_of_succ_lt hargc)).bind fun target htarget => ?_
      obtain ⟨me, a, hme, ha⟩ := h.nick (.inl rfl)
      rw [NetworkState.nick_eq hme, ok_bind, ha]
      refine (ircEq_total _ _ _).bind fun t ht => ?_
      split
      · rename_i htrue
        rw [htrue] at ht
        have hsame : SameNick s target a :=
          congrArg Except.ok (of_decide_eq_true ht.symm)
        have hp := hsafe o target a ho htarget ((nameOf_eq hme).trans ha) hsame
        dsimp only
        rw [ok_bind]
        refine (findAddNetworkNick_total h hp).bind ?_
        rintro ⟨g, s₁⟩ ⟨h₁, hk, -⟩
        obtain ⟨n, b, hn, hb⟩ := h₁.nick hk
        dsimp only at hn ⊢
        rw [NetworkState.modifyNick, NetworkState.nick_eq hn]
        exact h₁.setNick hn hb rfl fun _ => rfl
      · exact h

theorem networkNickSetNick_nick (n : NetworkNick) (x : Str) :
    (networkNickSetNick n x).nick = some x := by
  unfold networkNickSetNick
  split
  · assumption
  · rfl

theorem handleNick_total (h : Whole s) (hargc : 1 < l.argc)
    (hsafe : ∀ o, l.origin = some o → Nameable s (o.takeWhile (· ≠ chr '!'))) :
    Total (handleNick s l) Whole := by
  unfold handleNick lineGetNick
  cases ho : l.origin with
  | none => exact h
  | some o =>
      dsimp only
      rw [ok_bind]
      refine (findAddNetworkNick_total h (hsafe o ho)).bind ?_
      rintro ⟨g, s₁⟩ ⟨h₁, hk, -⟩
      refine (IrcLine.argStr_total hargc).bind fun x _ => ?_
      obtain ⟨n, a, hn, -⟩ := h₁.nick hk
      dsimp only at hn ⊢
      rw [NetworkState.modifyNick, NetworkState.nick_eq hn]
      exact h₁.setNick hn (networkNickSetNick_nick n x) (by simp) (by simp)

theorem userhost_total (h : Whole s) {user : Str}
    (hsafe : ∀ nick rest tl, gStrsplitN user (chr '=') 2 = nick :: rest :: tl →
      rest ≠ [] ∧ isPrefix nick.head? (some s.info) = false) :
    Total (userhost s user) (fun s' => Whole s' ∧ s'.info = s.info) := by
  unfold userhost
  split
  · rename_i nick rest tl hsplit
    obtain ⟨hrest, hp⟩ := hsafe nick rest tl hsplit
    refine (findAddNetworkNick_total h (nameable_of_not hp)).bind ?_
    rintro ⟨g, s₁⟩ ⟨h₁, hk, hi, -⟩
    cases rest with
    | nil => exact absurd rfl hrest
    | cons b uh =>
        obtain ⟨n, a, hn, ha⟩ := h₁.nick hk
        have hbang : chr '!' ∈ nick ++ chr '!' :: uh := by simp
        obtain ⟨x, hx⟩ := splitHostmask_name ha hbang
        dsimp only at hn ⊢
        rw [NetworkState.modifyNick, NetworkState.nick_eq hn]
        exact ⟨h₁.setNick hn hx (by simp) (by simp), hi⟩
  · exact ⟨h, rfl⟩

theorem handle302_total (h : Whole s) (hargc : 2 < l.argc)
    (hsafe : ∀ w, l.args[2]? = some w → ∀ user ∈ gStrsplit (gStrstrip w) (chr ' '),
      ∀ nick rest tl, gStrsplitN user (chr '=') 2 = nick :: rest :: tl →
        rest ≠ [] ∧ isPrefix nick.head? (some s.info) = false) :
    Total (handle302 s l) Whole := by
  refine (IrcLine.argStr_total hargc).bind fun users husers => ?_
  have loop := Ensures.foldlM (f := userhost) (l := gStrsplit (gStrstrip users) (chr ' ')) (b := s)
    (I := fun s' => Whole s' ∧ s'.info = s.info) (E := fun _ => False) ?_ ⟨h, rfl⟩
  · exact loop.imp fun _ => And.left
  rintro s' user huser ⟨h', hi⟩
  refine (userhost_total h' ?_).imp fun _ hs => ⟨hs.1, hs.2.trans hi⟩
  rw [hi]
  exact hsafe users husers user huser

/-! ### Modes -/

/-- A channel mode change leaves the nicks and the lists of the state alone. -/
structure SameLists (s s' : NetworkState) : Prop where
  nicks : s'.nicks = s.nicks
  channels : s'.channels = s.channels
  info : s'.info = s.info

theorem SameLists.refl (s : NetworkState) : SameLists s s := ⟨rfl, rfl, rfl⟩

/-- What `channel_state_change_mode` returns: a whole state, and how many arguments it took. -/
def ModeChanged (s : NetworkState) (r : NetworkState × Option ℕ) : Prop :=
  Whole r.1 ∧ SameLists s r.1 ∧ ∀ n ∈ r.2, n ≤ 1

theorem nicklistRemoveEntry_total {old : List NicklistEntry} (h : ∀ e ∈ old, e.hostmask ≠ none)
    (mask : Str) : Total (nicklistRemoveEntry old mask) (fun new => ∀ e ∈ new, e ∈ old) := by
  induction old with
  | nil => exact fun _ he => he
  | cons e old ih =>
      unfold nicklistRemoveEntry
      split
      · rename_i hnone
        exact h e List.mem_cons_self hnone
      · split
        · exact fun _ he => List.mem_cons_of_mem _ he
        · refine (ih fun e he => h e (List.mem_cons_of_mem _ he)).bind fun new hnew => ?_
          intro e' he'
          rcases List.mem_cons.mp he' with rfl | he'
          · exact List.mem_cons_self
          · exact List.mem_cons_of_mem _ (hnew e' he')

theorem changeMasks_total (h : Whole s) {by' : Option Ref} (hby : ∀ b ∈ by', Known s b)
    {old : List NicklistEntry} (hold : ∀ e ∈ old, e.hostmask ≠ none) (now : Long) (set : Bool)
    (mask : Str) :
    Total (changeMasks now by' set mask s old) (fun new => ∀ e ∈ new, e.hostmask ≠ none) := by
  unfold changeMasks
  split
  · have hsetter : Total (setterNick s by') (fun _ => True) := by
      cases by' with
      | none => trivial
      | some b =>
          obtain ⟨n, a, hn, -⟩ := h.nick (hby b rfl)
          unfold setterNick
          dsimp only
          rw [NetworkState.nick_eq hn]
          trivial
    refine hsetter.bind fun byNick _ e he => ?_
    rcases List.mem_append.mp he with he | he
    · exact hold e he
    · rw [List.mem_singleton.mp he]
      exact Option.some_ne_none mask
  · exact (nicklistRemoveEntry_total hold mask).imp fun new hnew e he => hold e (hnew e he)

theorem changeNicklist_total (h : Whole s) {by' : Option Ref} (hby : ∀ b ∈ by', Known s b)
    {c : Ref} (hc : c ∈ s.channels) {b : Byte} (hb : b ≠ byteFF) (now : Long) (set : Bool)
    (optArg : Option Str) : Total (changeNicklist now by' c set b optArg s) (ModeChanged s) := by
  cases optArg with
  | none => exact ⟨h, .refl s, fun n hn => by cases hn⟩
  | some mask =>
      obtain ⟨ch, hch, -⟩ := h.graph.chan_live c hc
      refine (modeSlot_ensures hb).bind fun i _ => ?_
      rw [NetworkState.chan_eq hch, ok_bind]
      split
      · have hold := h.masks c ch hch
        refine (changeMasks_total h hby (hold i) now set mask).bind fun new hnew => ?_
        refine ⟨h.setChan hch rfl rfl fun _ j e he => ?_, ⟨rfl, rfl, rfl⟩,
          fun n hn => by cases hn; rfl⟩
        change e ∈ ModeArray.set _ _ _ j at he
        unfold ModeArray.set at he
        split at he
        · exact hnew e he
        · exact hold j e he
      · exact ⟨h, .refl s, fun n hn => by cases hn; rfl⟩

theorem setOption_total (h : Whole s) {c : Ref} (hc : c ∈ s.channels) {b : Byte} (hb : b ≠ byteFF)
    (v : Option Str) : Total (setOption c b v s) (fun s' => Whole s' ∧ SameLists s s') := by
  obtain ⟨ch, hch, -⟩ := h.graph.chan_live c hc
  refine (modeSlot_ensures hb).bind fun i _ => ?_
  rw [NetworkState.modifyChan, NetworkState.chan_eq hch]
  exact ⟨h.setChan hch rfl rfl id, rfl, rfl, rfl⟩

theorem changeSetting_total (h : Whole s) {c : Ref} (hc : c ∈ s.channels) {b : Byte}
    (hb : b ≠ byteFF) (set : Bool) (optArg : Option Str) :
    Total (changeSetting c set b optArg s) (ModeChanged s) := by
  unfold changeSetting
  split
  · cases optArg with
    | none => exact ⟨h, .refl s, fun n hn => by cases hn⟩
    | some v =>
        refine (setOption_total h hc hb (some v)).bind fun s' hs' => ?_
        exact ⟨hs'.1, hs'.2, fun n hn => by cases hn; rfl⟩
  · refine (setOption_total h hc hb none).bind fun s' hs' => ?_
    exact ⟨hs'.1, hs'.2, fun n hn => by cases hn; decide⟩

theorem changePrefixMode_total (h : Whole s) {c : Ref} (hc : c ∈ s.channels) {b : Byte}
    (hb : b ≠ byteFF) (set : Bool) (optArg : Option Str) :
    Total (changePrefixMode c set b optArg s) (ModeChanged s) := by
  cases optArg with
  | none => exact ⟨h, .refl s, fun n hn => by cases hn⟩
  | some nick =>
      obtain ⟨ch, hch, -⟩ := h.graph.chan_live c hc
      refine (findChannelNick_total h hc hch nick).bind fun r hr => ?_
      cases r with
      | none => exact ⟨h, .refl s, fun n hn => by cases hn⟩
      | some m =>
          obtain ⟨cn, gn, hl, -⟩ := h.graph.link_of_chan hc hch (hr m rfl)
          dsimp only
          rw [NetworkState.memb_eq hl.memb, ok_bind]
          refine (modesChangeMode_ensures hb cn.modes set).bind fun modes _ => ?_
          exact ⟨h.setMemb hl.memb rfl rfl, ⟨rfl, rfl, rfl⟩, fun n hn => by cases hn; rfl⟩

theorem changeBool_total (h : Whole s) {c : Ref} (hc : c ∈ s.channels) {b : Byte}
    (hb : b ≠ byteFF) (set : Bool) : Total (changeBool c set b s) (ModeChanged s) := by
  obtain ⟨ch, hch, -⟩ := h.graph.chan_live c hc
  unfold changeBool
  rw [NetworkState.chan_eq hch, ok_bind]
  refine (modesChangeMode_ensures hb ch.modes set).bind fun modes _ => ?_
  exact ⟨h.setChan hch rfl rfl id, ⟨rfl, rfl, rfl⟩, fun n hn => by cases hn; decide⟩

theorem channelStateChangeMode_total (h : Whole s) {by' : Option Ref}
    (hby : ∀ b ∈ by', Known s b) {c : Ref} (hc : c ∈ s.channels) {b : Byte} {t : ChanmodeType}
    (ht : networkChanmodeType b s.info = .ok t) (hFF : b = byteFF → ¬ ChanmodeFF s.info)
    (now : Long) (set : Bool) (optArg : Option Str) :
    Total (channelStateChangeMode now by' c set b optArg s) (ModeChanged s) := by
  have typed : t ≠ .unknown → b ≠ byteFF := by
    rintro hne rfl
    exact hFF rfl ⟨t, ht, .inl hne⟩
  have prefixed : isPrefixMode s.info b = true → b ≠ byteFF := by
    rintro hp rfl
    exact hFF rfl ⟨t, ht, .inr hp⟩
  unfold channelStateChangeMode
  rw [ht, ok_bind]
  split
  · rename_i e
    exact changeNicklist_total h hby hc (typed (by rw [e]; decide)) now set optArg
  split
  · rename_i e
    exact changeSetting_total h hc (typed (by rcases e with e | e <;> rw [e] <;> decide)) set optArg
  split
  · rename_i hp
    exact changePrefixMode_total h hc (prefixed hp) set optArg
  split
  · rename_i e
    exact changeBool_total h hc (typed (by rw [e]; decide)) set
  · exact ⟨h, .refl s, fun n hn => by cases hn; rfl⟩

/-- The next argument of a mode change is never beyond the end of the vector: it moves on only
past an argument that is there. -/
theorem channelModeLoop_total (h : Whole s) {by' : Option Ref} (hby : ∀ b ∈ by', Known s b)
    {c : Ref} (hc : c ∈ s.channels) {w : Str}
    (htype : ∀ b ∈ w, b ≠ chr '+' → b ≠ chr '-' → ∃ t, networkChanmodeType b s.info = .ok t)
    (hFF : byteFF ∈ w → ¬ ChanmodeFF s.info) (now : Long) (t : Bool) {arg : ℕ}
    (harg : arg ≤ l.argc) : Total (channelModeLoop now l by' c w t arg s) Whole := by
  induction w generalizing t arg s with
  | nil => exact h
  | cons b w ih =>
      have htype' : ∀ b ∈ w, b ≠ chr '+' → b ≠ chr '-' →
          ∃ t, networkChanmodeType b s.info = .ok t :=
        fun b hb => htype b (List.mem_cons_of_mem _ hb)
      have hFF' : byteFF ∈ w → ¬ ChanmodeFF s.info := fun hw => hFF (List.mem_cons_of_mem _ hw)
      by_cases hsign : b = chr '+' ∨ b = chr '-'
      · rw [channelModeLoop_sign hsign]
        exact ih h hby hc htype' hFF' _ harg
      obtain ⟨hplus, hminus⟩ := not_or.mp hsign
      rw [channelModeLoop_change hplus hminus]
      obtain ⟨ty, hty⟩ := htype b List.mem_cons_self hplus hminus
      refine (IrcLine.arg_total harg).bind fun opt hopt => ?_
      have hb : b = byteFF → ¬ ChanmodeFF s.info := by
        rintro rfl
        exact hFF List.mem_cons_self
      refine (channelStateChangeMode_total h hby hc hty hb now t opt).bind ?_
      rintro ⟨s₁, ret⟩ ⟨h₁, hsame, hret⟩
      replace hsame : SameLists s s₁ := hsame
      cases ret with
      | none => exact h₁
      | some n =>
          have hby₁ : ∀ b ∈ by', Known s₁ b := by
            intro b hb
            rw [Known, hsame.nicks]
            exact hby b hb
          refine ih h₁ hby₁ (hsame.channels ▸ hc) ?_ ?_ t ?_
          · rw [hsame.info]
            exact htype'
          · rw [hsame.info]
            exact hFF'
          · split
            · rename_i hsome
              have hlt : arg < l.args.length := by
                by_contra hge
                rw [List.getElem?_eq_none (not_lt.mp hge)] at hopt
                rw [← hopt] at hsome
                cases hsome
              exact (Nat.add_le_add_left (hret n rfl) arg).trans hlt
            · exact harg

theorem handleMode_total (h : Whole s) (hargc : 2 < l.argc)
    (htypes : s.info.text .chantypes ≠ none)
    (hchan : ∀ target, l.args[1]? = some target → isChannelname target s.info = .ok true →
      OnChannel s l 1 → l.origin ≠ none ∧ ∀ change, l.args[2]? = some change → ∀ b ∈ change,
        b ≠ chr '+' → b ≠ chr '-' → ∃ t, networkChanmodeType b s.info = .ok t)
    (huser : ∀ target, l.args[1]? = some target → isChannelname target s.info = .ok false →
      Nameable s target)
    (hFF : ¬ ModeFF s l) (now : Long) : Total (handleMode now s l) Whole := by
  refine (IrcLine.argStr_total (Nat.lt_of_succ_lt hargc)).bind fun target htarget => ?_
  refine (IrcLine.argStr_total hargc).bind fun change hchange => ?_
  obtain ⟨b, hb⟩ : ∃ b, isChannelname target s.info = .ok b := by
    unfold isChannelname
    cases ht : s.info.text .chantypes with
    | none => exact absurd ht htypes
    | some t => cases target <;> exact ⟨_, rfl⟩
  rw [hb, ok_bind]
  split
  · rename_i ht
    rw [ht] at hb
    refine (findChannel_total h.graph target).with_eq.bind ?_
    rintro r ⟨hr, hmem⟩
    cases r with
    | none => exact h
    | some c =>
        have hon : OnChannel s l 1 := ⟨target, c, htarget, hr⟩
        obtain ⟨horigin, htype⟩ := hchan target htarget hb hon
        obtain ⟨o, ho⟩ := Option.ne_none_iff_exists'.mp horigin
        unfold lineGetNick
        rw [ho]
        dsimp only
        rw [ok_bind]
        refine (findNetworkNick_total h _).bind fun by' hby => ?_
        refine channelModeLoop_total h hby (hmem c rfl) (htype change hchange) ?_ now true hargc
        exact fun hw hc => hFF ⟨target, change, htarget, hchange, hw, fun _ => ⟨hon, hc⟩⟩
  · rename_i hf
    have hfalse : isChannelname target s.info = .ok false := by
      rw [hb]
      cases b with
      | true => exact absurd rfl hf
      | false => rfl
    refine (findAddNetworkNick_total h (huser target htarget hfalse)).bind ?_
    rintro ⟨g, s₁⟩ ⟨h₁, hk, -⟩
    obtain ⟨n, a, hn, ha⟩ := h₁.nick hk
    dsimp only at hn ⊢
    rw [NetworkState.nick_eq hn, ok_bind]
    refine (changeModes_ensures (fun hw => hFF ⟨target, change, htarget, hchange, hw, fun ht => ?_⟩)
      true n.modes).bind fun modes _ => ?_
    · rw [hfalse] at ht
      cases ht
    · exact h₁.setNick hn ha rfl id

theorem handleUmodeis_total (h : Whole s) (hargc : 1 < l.argc)
    (hFF : ∀ w, l.args[1]? = some w → ¬ SignedFF w) : Total (handleUmodeis s l) Whole := by
  refine (IrcLine.argStr_total hargc).bind fun w hw => ?_
  refine (string2mode_ensures (hFF w hw) modesClear).bind ?_
  rintro ⟨modes, b⟩ -
  obtain ⟨n, a, hn, ha⟩ := h.nick (.inl rfl)
  dsimp only
  rw [NetworkState.modifyNick, NetworkState.nick_eq hn]
  exact h.setNick hn ha rfl id

/-! ### The server -/

theorem handle001_total (h : Whole s) (hargc : 1 < l.argc) : Total (handle001 s l) Whole := by
  refine (IrcLine.arg_total hargc.le).bind fun nick hnick => ?_
  rw [List.getElem?_eq_getElem hargc] at hnick
  obtain ⟨n, a, hn, ha⟩ := h.nick (.inl rfl)
  rw [NetworkState.modifyNick, NetworkState.nick_eq hn]
  exact h.setNick hn hnick.symm rfl id

theorem handle004_total (h : Whole s) (hargc : 5 < l.argc) : Total (handle004 s l) Whole := by
  have le : ∀ {i}, i ≤ 6 → i ≤ l.argc := fun hi => hi.trans hargc
  refine (IrcLine.arg_total (le (by decide))).bind fun userModes _ => ?_
  refine (IrcLine.arg_total (le (by decide))).bind fun channelModes _ => ?_
  refine (IrcLine.arg_total (le (by decide))).bind fun server _ => ?_
  exact h.announce _

/-- A token has the value its key needs. -/
structure TokenSafe (w : Str) : Prop where
  value : tokenKey w = some .keylen ∨ tokenKey w = some .elist ∨ tokenKey w = some .prefixes →
    tokenValue w ≠ none
  extban : tokenKey w = some .extban → tokenValue w ≠ some []

theorem gStrsplitN_ne_nil {w : Str} (h : w ≠ []) (b : Byte) (n : ℕ) : gStrsplitN w b n ≠ [] := by
  rw [gStrsplitN, if_neg h]
  unfold piecesN
  split
  · exact List.cons_ne_nil _ _
  · exact List.cons_ne_nil _ _
  · split <;> exact List.cons_ne_nil _ _

theorem networkInfoParse_total {w : Str} (h : TokenSafe w) (n : NetworkInfo) :
    Total (networkInfoParse n w) (fun _ => True) := by
  unfold networkInfoParse
  split
  · rename_i k hk
    cases k with
    | casemapping | text | flag => trivial
    | silence | chanmodes => cases tokenValue w <;> trivial
    | keylen =>
        have hv := h.value (.inl hk)
        cases hval : tokenValue w with
        | none => exact hv hval
        | some v => trivial
    | elist =>
        have hv := h.value (.inr (.inl hk))
        cases hval : tokenValue w with
        | none => exact hv hval
        | some v => trivial
    | num k =>
        simp only [applyInfoKey]
        split <;> trivial
    | mode m d =>
        simp only [applyInfoKey]
        split <;> trivial
    | extban =>
        have hv := h.extban hk
        cases hval : tokenValue w with
        | none => trivial
        | some v =>
            have hne : v ≠ [] := fun e => hv (by rw [hval, e])
            simp only [applyInfoKey, if_neg (gStrsplitN_ne_nil hne (chr ',') 2)]
            trivial
    | prefixes =>
        have hv := h.value (.inr (.inr hk))
        cases hval : tokenValue w with
        | none => exact hv hval
        | some v =>
            simp only [applyInfoKey]
            split <;> trivial
  · trivial

theorem handle005_total (h : Whole s) (hsafe : ∀ w ∈ l.args.dropLast.drop 2, TokenSafe w) :
    Total (handle005 s l) Whole := by
  have loop : Total ((l.args.dropLast.drop 2).foldlM networkInfoParse s.info) (fun _ => True) :=
    Ensures.foldlM (fun n w hw _ => networkInfoParse_total (hsafe w hw) n) trivial
  exact loop.bind fun i _ => h.announce i

end

/-! ### Runs -/

/-- What the handlers leave unchecked, of the line and of the state it arrives in. -/
structure Safe (s : NetworkState) (l : IrcLine) : Prop where
  /-- No character `0xFF` reaches a mode table. -/
  modes : ModeSafe s l
  /-- The nick of a JOIN is not empty, its origin has a `!`, and one prefix character at most
  stands in front. -/
  join : commandOf l = some .join → ∀ o, l.origin = some o →
    o.takeWhile (· ≠ chr '!') ≠ [] ∧ chr '!' ∈ o ∧
      isPrefix (stripPrefix (some s.info) (o.takeWhile (· ≠ chr '!'))).head? (some s.info) = false
  /-- The channel of a TOPIC is known. -/
  topic : commandOf l = some .topic → l.origin ≠ none → OnChannel s l 1
  /-- The nick of a NICK is known, or has no prefix character in front. -/
  nick : commandOf l = some .nick → ∀ o, l.origin = some o →
    Nameable s (o.takeWhile (· ≠ chr '!'))
  /-- So is that of a PRIVMSG to the user. -/
  privmsg : commandOf l = some .privmsg → ∀ o target me, l.origin = some o →
    l.args[1]? = some target → nameOf s meRef = some me → SameNick s target me →
      Nameable s (o.takeWhile (· ≠ chr '!'))
  /-- For a MODE the kinds of channels are known. -/
  chantypes : commandOf l = some .mode → s.info.text .chantypes ≠ none
  /-- A MODE of a known channel has an origin, and the groups of channel modes answer for its
  letters. -/
  chanmodes : commandOf l = some .mode → ∀ target, l.args[1]? = some target →
    isChannelname target s.info = .ok true → OnChannel s l 1 → l.origin ≠ none ∧
      ∀ change, l.args[2]? = some change → ∀ b ∈ change, b ≠ chr '+' → b ≠ chr '-' →
        ∃ t, networkChanmodeType b s.info = .ok t
  /-- The nick of a user's MODE is known, or has no prefix character in front. -/
  usermodes : commandOf l = some .mode → ∀ target, l.args[1]? = some target →
    isChannelname target s.info = .ok false → Nameable s target
  /-- The tokens of a 005 have the values their keys need. -/
  isupport : commandOf l = some .c005 → ∀ w ∈ l.args.dropLast.drop 2, TokenSafe w
  /-- The users of a 302 have something behind the `=`, and no prefix character in front. -/
  userhost : commandOf l = some .c302 → ∀ w, l.args[2]? = some w →
    ∀ user ∈ gStrsplit (gStrstrip w) (chr ' '), ∀ nick rest tl,
      gStrsplitN user (chr '=') 2 = nick :: rest :: tl →
        rest ≠ [] ∧ isPrefix nick.head? (some s.info) = false
  /-- A 333 for a known channel has a time. -/
  topicTime : commandOf l = some .c333 → OnChannel s l 2 → 4 < l.argc
  /-- The names of a 353 for a known channel have one prefix character at most. -/
  namreply : commandOf l = some .namreply → OnChannel s l 3 → NamesSafe s l
  /-- A 346, 348 or 367 for a known channel has a mask. -/
  masks : commandOf l = some .banlistEntry ∨ commandOf l = some .invitelistEntry ∨
    commandOf l = some .exceptlistEntry → OnChannel s l 2 → 3 < l.argc
  /-- The nick of a 352 is known, or has no prefix character in front. -/
  whoreply : commandOf l = some .whoreply → ∀ nick, l.args[6]? = some nick → Nameable s nick

theorem handler_total {s : NetworkState} {l : IrcLine} (h : Whole s) {k : Command}
    (hk : commandOf l = some k) (hsafe : Safe s l) (now : Long) :
    Total (k.handler now s l) Whole := by
  have hargc := commandOf_argc hk
  cases k with
  | join => exact handleJoin_total h hargc (hsafe.join hk) (hsafe.modes.join hk)
  | part => exact handlePart_total h hargc
  | kick => exact handleKick_total h hargc
  | quit => exact handleQuit_total h
  | topic => exact handleTopic_total h hargc (hsafe.topic hk) now
  | nick => exact handleNick_total h hargc (hsafe.nick hk)
  | privmsg => exact handlePrivmsg_total h hargc (hsafe.privmsg hk)
  | mode =>
      exact handleMode_total h hargc (hsafe.chantypes hk) (hsafe.chanmodes hk) (hsafe.usermodes hk)
        (hsafe.modes.mode hk) now
  | c001 => exact handle001_total h hargc
  | c004 => exact handle004_total h hargc
  | c005 => exact handle005_total h (hsafe.isupport hk)
  | umodeis => exact handleUmodeis_total h hargc (hsafe.modes.umodeis hk)
  | c302 => exact handle302_total h hargc (hsafe.userhost hk)
  | c324 => exact handle324_total h hargc (hsafe.modes.c324 hk)
  | c329 => exact handle329_total h hargc
  | c332 => exact handle332_total h hargc
  | c333 => exact handle333_total h hargc (hsafe.topicTime hk)
  | noTopic => exact handleNoTopic_total h hargc
  | namreply => exact handleNamreply_total h hargc (hsafe.namreply hk) (hsafe.modes.namreply hk)
  | endNames => exact handleEndNames_total h hargc
  | banlistEntry => exact handleMaskEntry_total h _ hargc (hsafe.masks (.inl hk))
  | invitelistEntry => exact handleMaskEntry_total h _ hargc (hsafe.masks (.inr (.inl hk)))
  | exceptlistEntry => exact handleMaskEntry_total h _ hargc (hsafe.masks (.inr (.inr hk)))
  | endBanlist | endInvitelist | endExceptlist => exact handleEndMasks_total h _ hargc
  | whoreply => exact handleWhoreply_total h hargc (hsafe.whoreply hk) now
  | endWho => exact h
  | nowaway | unaway => exact ⟨⟨h.1.1, h.1.2, h.1.3, h.1.4, h.1.5, h.1.6, h.1.7, h.1.8, h.1.9⟩, h.2, h.3⟩

theorem stateStep_total {s : NetworkState} (h : Whole s) {i : Input} (hsafe : Safe s i.2) :
    Total (stateStep s i) Whole := by
  cases hk : commandOf i.2 with
  | none => exact ensures_of_eq_ok (stateStep_none hk) h
  | some k =>
      rw [stateStep_handler hk]
      exact handler_total h hk hsafe i.1

theorem networkStateInit_whole (nick username hostname : Str) :
    Whole (networkStateInit nick username hostname) where
  graph := networkStateInit_graph _ _ _
  named := (networkStateInit_named nick username hostname).unique.named
  masks := fun _ _ e => by cases e

/-- **The state machine completes** on every safe line, in every state reached by safe lines. -/
theorem reachable_total {nick username hostname : Str} {s : NetworkState}
    (h : Reach stateStep (fun s i => Safe s i.2) (networkStateInit nick username hostname) s)
    (i : Input) (hsafe : Safe s i.2) : ∃ s', stateStep s i = .ok s' := by
  have hw : Whole s :=
    h.invariant (networkStateInit_whole _ _ _) fun _ _ h hsafe =>
      (stateStep_total h hsafe).mono (fun _ => id) fun _ _ => trivial
  obtain ⟨s', hs', -⟩ := (stateStep_total hw hsafe).exists_ok
  exact ⟨s', hs'⟩

theorem reachable_total_join_part : ∃ s,
    Reach stateStep (fun s i => Safe s i.2)
      (networkStateInit (str "me") (str "user") (str "host")) s ∧
    s.channels.length = 1 ∧ ∃ s', stateStep s (inputOf ":joe!u@h PART #c,,#d") = .ok s' := by
  let s₀ := networkStateInit (str "me") (str "user") (str "host")
  let i := inputOf ":joe!u@h JOIN #c"
  have run : (stateStep s₀ i).map (fun s => s.channels.length) = .ok 1 := by decide +kernel
  obtain ⟨s, hs, hlen⟩ := map_eq_ok run
  have hjoin : commandOf i.2 = some .join := by decide +kernel
  have horigin : i.2.origin = some (str "joe!u@h") := by decide +kernel
  have hsafe : Safe s₀ i.2 := by
    refine ⟨⟨fun _ o ho => ?_, ?_, ?_, ?_, ?_⟩, fun _ o ho => ?_, ?_, ?_, ?_, ?_, ?_, ?_, ?_, ?_, ?_,
      ?_, ?_, ?_⟩
    · rw [horigin] at ho
      cases ho
      rintro ⟨p, hp, hmode⟩
      have hj : p = chr 'j' := Option.some.inj (hp.symm.trans (by decide +kernel))
      rw [hj] at hmode
      exact absurd hmode (by decide +kernel)
    rotate_left 4
    · rw [horigin] at ho
      cases ho
      exact ⟨by decide +kernel, by decide +kernel, by decide +kernel⟩
    all_goals
      rw [hjoin]
      simp
  have hpart : commandOf (inputOf ":joe!u@h PART #c,,#d").2 = some .part := by decide +kernel
  have hsafe' : Safe s (inputOf ":joe!u@h PART #c,,#d").2 := by
    refine ⟨⟨?_, ?_, ?_, ?_, ?_⟩, ?_, ?_, ?_, ?_, ?_, ?_, ?_, ?_, ?_, ?_, ?_, ?_, ?_⟩
    all_goals
      rw [hpart]
      simp
  have hreach : Reach stateStep (fun s i => Safe s i.2) s₀ s := .step .refl hsafe hs
  exact ⟨s, hreach, hlen, reachable_total hreach _ hsafe'⟩

/-- A line as `irc_parse_line` produces it. -/
def Parsed (l : IrcLine) : Prop := ∃ d, ircParseLine d = some l

/-- A TOPIC line for a channel that is not known reads the channel at `NULL`. -/
theorem topic_of_unknown_channel_aborts :
    ¬ ∀ (nick username hostname : Str) (s : NetworkState),
      Reach stateStep (fun _ i => Parsed i.2) (networkStateInit nick username hostname) s →
        ∀ i : Input, Parsed i.2 → ∃ s', stateStep s i = .ok s' := by
  intro claim
  let s₀ := networkStateInit (str "me") (str "user") (str "host")
  let i := inputOf ":joe!u@h TOPIC #c :hello"
  have hparsed : ircParseLine (str ":joe!u@h TOPIC #c :hello") = some i.2 := by decide +kernel
  have fault : (stateStep s₀ i).map (fun _ => ()) = .error .null := by decide +kernel
  obtain ⟨s', hs'⟩ := claim _ _ _ s₀ .refl i ⟨_, hparsed⟩
  rw [hs'] at fault
  cases fault

end Ctrlproxy
