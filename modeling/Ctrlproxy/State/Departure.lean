import Mathlib.Data.List.Find
import Ctrlproxy.State.Lookup

/-!
# State — nicks that leave channels

A PART or KICK line names channels and nicks pair by pair.  A pair takes the nick out of the
channel; when the nick is the user, the channel goes, with all its members.  `departures` says what
the pairs of a line name in the state before it, and `handleDeparture_without` that the line takes
out just that, whatever is freed in the middle of the loop.
-/

namespace Ctrlproxy
open Outcome

/-! ### What a line names -/

/-- The channel and the nick a pair of names denotes, among the channels `chans`. -/
def denotes (m : Casemapping) (s : NetworkState) (chans : List Ref) (p : Str × Str) :
    Option (Ref × Ref) := do
  let c ← chans.find? fun c => channelKey m s c = some (m.fold p.1)
  let g ← (meRef :: s.nicks).find? fun g => nickKey m s g = some (m.fold p.2)
  pure (c, g)

/-- The channels and nicks that a list of pairs names: a name is that of the first channel that has
it and that the user has not left. -/
def departures (m : Casemapping) (s : NetworkState) : List Ref → List (Str × Str) → List (Ref × Ref)
  | _, [] => []
  | chans, p :: ps => match denotes m s chans p with
      | none => departures m s chans ps
      | some d => d :: departures m s (if d.2 = meRef then chans.erase d.1 else chans) ps

@[simp] theorem departures_nil (m : Casemapping) (s : NetworkState) (chans : List Ref) :
    departures m s chans [] = [] := rfl

theorem departures_cons (m : Casemapping) (s : NetworkState) (chans : List Ref) (p : Str × Str)
    (ps : List (Str × Str)) : departures m s chans (p :: ps) = match denotes m s chans p with
      | none => departures m s chans ps
      | some d => d :: departures m s (if d.2 = meRef then chans.erase d.1 else chans) ps := rfl

/-- The memberships that go: those named, and all of a channel the user leaves. -/
def leaving (s : NetworkState) (D : List (Ref × Ref)) (x : Ref) : Bool :=
  (s.membHeap x).any fun cn =>
    decide ((cn.channel, cn.globalNick) ∈ D ∨ (cn.channel, meRef) ∈ D)

/-- The channels that go: those the user leaves. -/
def leftByUser (D : List (Ref × Ref)) (c : Ref) : Bool := decide ((c, meRef) ∈ D)

/-- The user is on each of the channels. -/
def UserPresent (s : NetworkState) : Prop :=
  ∀ c ∈ s.channels, ∃ ch, s.chanHeap c = some ch ∧ ∃ x ∈ ch.nicks, ∃ cn,
    s.membHeap x = some cn ∧ cn.globalNick = meRef

section
variable {m : Casemapping} {s s₁ s₂ : NetworkState} {R C : Ref → Bool} {D : List (Ref × Ref)}
  {d : Ref × Ref} {c x g : Ref} {p : Str × Str} {nick : Str}

/-! ### Names while members leave -/

theorem Without.channelKey (w : Without s R C s₁) (h : Graph s) (hc : c ∈ s₁.channels) :
    channelKey m s₁ c = channelKey m s c := by
  obtain ⟨ch, hch, -⟩ := h.chan_live c (w.channel hc).1
  rw [channelKey_eq hch, channelKey_eq (w.chan c hc ch hch)]

theorem Without.nickKey (w : Without s R C s₁) (h : Graph s) (hk : Known s₁ g) :
    nickKey m s₁ g = nickKey m s g := by
  rw [Ctrlproxy.nickKey, Ctrlproxy.nickKey, (w.trims.names h hk).2]

theorem Without.named (w : Without s R C s₁) (h : Named m s) : Named m s₁ :=
  h.quiets w.trims.quiets

/-- A member of a channel that is left, when its membership is not in `R`. -/
theorem Without.member (w : Without s R C s₁) (hc : c ∈ s₁.channels) {ch : ChannelState}
    (hch : s.chanHeap c = some ch) (hx : x ∈ ch.nicks) (hR : R x = false) :
    ∃ ch₁, s₁.chanHeap c = some ch₁ ∧ x ∈ ch₁.nicks ∧ s₁.membHeap x = s.membHeap x := by
  refine ⟨_, w.chan c hc ch hch, mem_lessMembs.mpr ⟨hx, hR⟩, ?_⟩
  rw [w.memb x ⟨c, (w.channel hc).1, ch, hch, hx⟩, hR]
  rfl

theorem Linked.link (hx : Linked s x) (h : Graph s) : ∃ cn ch gn, Link s x cn ch gn := by
  obtain ⟨c, hc, ch, hch, hx⟩ := hx
  obtain ⟨cn, gn, hl, -⟩ := h.link_of_chan hc hch hx
  exact ⟨cn, _, gn, ⟨hl.chan_mem, hl.known, hl.memb, hl.chan, hl.nick, hl.in_chan, hl.in_nick⟩⟩

/-! ### What goes -/

theorem leaving_iff {cn : ChannelNick} (hcn : s.membHeap x = some cn) : leaving s D x = true ↔
    (cn.channel, cn.globalNick) ∈ D ∨ (cn.channel, meRef) ∈ D := by
  rw [leaving, hcn, Option.any_some, decide_eq_true_iff]

theorem leaving_concat {cn : ChannelNick} (hcn : s.membHeap x = some cn) :
    leaving s (D ++ [d]) x = true ↔
      leaving s D x = true ∨ cn.channel = d.1 ∧ (cn.globalNick = d.2 ∨ meRef = d.2) := by
  rw [leaving_iff hcn, leaving_iff hcn]
  simp only [List.mem_append, List.mem_singleton, Prod.ext_iff]
  tauto

theorem leftByUser_concat : leftByUser (D ++ [d]) c = true ↔
    leftByUser D c = true ∨ c = d.1 ∧ meRef = d.2 := by
  simp only [leftByUser, decide_eq_true_iff, List.mem_append, List.mem_singleton, Prod.ext_iff]

/-- The user is on each channel that is left. -/
theorem userPresent_without (w : Without s (leaving s D) (leftByUser D) s₁) (h : Graph s)
    (hu : UserPresent s) : UserPresent s₁ := by
  intro c hc
  obtain ⟨hc₀, hleft⟩ := w.channel hc
  obtain ⟨ch, hch, x, hx, cn, hcn, hme⟩ := hu c hc₀
  obtain ⟨cn', gn, hl, rfl⟩ := h.link_of_chan hc₀ hch hx
  obtain rfl := Option.some.inj (hcn.symm.trans hl.memb)
  have hstay : leaving s D x = false := by
    rw [← Bool.not_eq_true, leaving_iff hcn, hme, or_self]
    rwa [leftByUser, decide_eq_false_iff_not] at hleft
  obtain ⟨ch₁, hch₁, hx₁, hcn₁⟩ := w.member hc hch hx hstay
  exact ⟨ch₁, hch₁, x, hx₁, cn, hcn₁.trans hcn, hme⟩

/-! ### One pair -/

/-- Leaving a channel frees it for the user, and nobody else. -/
theorem leaveChannel_eq (h : Named m s₂) (c : Ref) : leaveChannel s₂ c nick =
    if Ctrlproxy.nickKey m s₂ meRef = some (m.fold nick) then freeChannelState s₂ c else .ok s₂ := by
  obtain ⟨me, a, hme, ha, hkey⟩ := h.unique.live (.inl rfl)
  rw [leaveChannel, NetworkState.nick_eq hme, ok_bind, ha, ircEq_name h.mapping, ok_bind, hkey]
  by_cases e : m.fold nick = m.fold a
  · rw [if_pos (decide_eq_true e), if_pos (congrArg some e.symm)]
  · rw [decide_eq_false e, if_neg Bool.false_ne_true, if_neg fun e' => e (Option.some.inj e').symm]
    rfl

/-- The channel a pair names is searched among those that are left. -/
theorem findChannel_without (h : Named m s) (w : Without s R C s₁) (name : Str) :
    findChannel s₁ name =
      .ok (s₁.channels.find? fun c => Ctrlproxy.channelKey m s c = some (m.fold name)) := by
  rw [findChannel_eq (w.graph h.graph) (w.named h).mapping]
  refine congrArg Except.ok (List.find?_congr fun c hc => ?_)
  rw [w.channelKey h.graph hc]

/-- A member that is named is taken out. -/
theorem Without.departs (h : Named m s) (w : Without s (leaving s D) (leftByUser D) s₁)
    {cn : ChannelNick} {ch : ChannelState} {gn : NetworkNick} (hl : Link s₁ x cn ch gn)
    (hme : cn.globalNick ≠ meRef) :
    Without s (leaving s (D ++ [(cn.channel, cn.globalNick)]))
      (leftByUser (D ++ [(cn.channel, cn.globalNick)])) (removeMemb s₁ x cn ch gn) := by
  refine (w.remove h.graph hl).congr h.graph (fun y hy => ?_) fun c _ => ?_
  · obtain ⟨cn', ch', gn', hl'⟩ := hy.link h.graph
    obtain ⟨ch₀, gn₀, hl₀, -⟩ := w.link h.graph hl
    refine Bool.eq_iff_iff.mpr ?_
    rw [leaving_concat hl'.memb, withMemb, Bool.or_eq_true, decide_eq_true_iff]
    refine or_congr_right ⟨?_, ?_⟩
    · rintro rfl
      obtain rfl := Option.some.inj (hl'.memb.symm.trans hl₀.memb)
      exact ⟨rfl, .inl rfl⟩
    · rintro ⟨hc, hg | hg⟩
      · have hc : cn'.channel = cn.channel := hc
        have hch : s.chanHeap cn.channel = some ch' := hc ▸ hl'.chan
        obtain rfl := Option.some.inj (hl₀.chan.symm.trans hch)
        exact h.unique.members _ hl₀.chan_mem ch₀ hl₀.chan y hl'.in_chan x hl₀.in_chan cn' cn
          hl'.memb hl₀.memb hg
      · exact absurd hg.symm hme
  · refine Bool.eq_iff_iff.mpr ?_
    rw [leftByUser_concat]
    exact ⟨.inl, fun e => e.resolve_right fun e => hme e.2.symm⟩

/-- The user is taken out with the channel. -/
theorem Without.userDeparts (h : Named m s) (w : Without s (leaving s D) (leftByUser D) s₁)
    {cn : ChannelNick} {ch : ChannelState} {gn : NetworkNick} (hl : Link s₁ x cn ch gn) :
    ∃ s', freeChannelState (removeMemb s₁ x cn ch gn) cn.channel = .ok s' ∧
      Without s (leaving s (D ++ [(cn.channel, meRef)]))
        (leftByUser (D ++ [(cn.channel, meRef)])) s' := by
  have hc₂ : cn.channel ∈ (removeMemb s₁ x cn ch gn).channels :=
    removeMemb_channels (s := s₁) ▸ hl.chan_mem
  obtain ⟨s', hs', w'⟩ :=
    freeChannelState_without h.graph (w.remove h.graph hl) hc₂ removeMemb_chan
  refine ⟨s', hs', w'.congr h.graph (fun y hy => ?_) fun c _ => ?_⟩
  · obtain ⟨cn', ch', gn', hl'⟩ := hy.link h.graph
    obtain ⟨ch₀, gn₀, hl₀, -, rfl, -⟩ := w.link h.graph hl
    refine Bool.eq_iff_iff.mpr ?_
    rw [leaving_concat hl'.memb, withMembs, withMemb, Bool.or_eq_true, Bool.or_eq_true,
      decide_eq_true_iff, decide_eq_true_iff]
    -- a membership of the channel was taken out before, is the user's, or goes with the channel
    have hin : y ∈ ch₀.nicks ↔ cn'.channel = cn.channel := by
      constructor
      · intro hy
        obtain ⟨cn'', gn'', hl'', e⟩ := h.graph.link_of_chan hl₀.chan_mem hl₀.chan hy
        rwa [Option.some.inj (hl'.memb.symm.trans hl''.memb)]
      · intro e
        have hch : s.chanHeap cn.channel = some ch' := e ▸ hl'.chan
        rw [Option.some.inj (hl₀.chan.symm.trans hch)]
        exact hl'.in_chan
    have hnd : (lessMembs (leaving s D) ch₀.nicks).Nodup := by
      obtain ⟨ch₁, hch₁, -, hnd⟩ := h.graph.chan_live _ hl₀.chan_mem
      obtain rfl := Option.some.inj (hl₀.chan.symm.trans hch₁)
      exact hnd.filter _
    have hself : y = x → cn'.channel = cn.channel := fun e => hin.mp (e ▸ hl₀.in_chan)
    rw [hnd.mem_erase_iff, mem_lessMembs, hin]
    cases leaving s D y <;> by_cases e : y = x <;> simp [e]
    exact hself e
  · refine Bool.eq_iff_iff.mpr ?_
    rw [leftByUser_concat, withMemb, Bool.or_eq_true, decide_eq_true_iff]
    simp

/-- A nick that is named but is not on the channel any more takes nothing out. -/
theorem Without.departsNot (h : Named m s) (hu : UserPresent s)
    (w : Without s (leaving s D) (leftByUser D) s₁) {ch : ChannelState} (hc : c ∈ s₁.channels)
    (hch : s₁.chanHeap c = some ch) {key : Str} (hkey : Ctrlproxy.nickKey m s g = some key)
    (hno : ∀ x ∈ ch.nicks, membKey m s₁ x ≠ some key) :
    Without s (leaving s (D ++ [(c, g)])) (leftByUser (D ++ [(c, g)])) s₁ := by
  have absent : ∀ x ∈ ch.nicks, ∀ cn, s₁.membHeap x = some cn → Known s₁ cn.globalNick →
      cn.globalNick ≠ g := by
    rintro x hx cn hcn hk rfl
    refine hno x hx ?_
    rw [membKey_eq hcn, w.nickKey h.graph hk, hkey]
  have hme : meRef ≠ g := by
    rintro rfl
    obtain ⟨ch', hch', x, hx, cn, hcn, hme⟩ := userPresent_without w h.graph hu c hc
    obtain rfl := Option.some.inj (hch.symm.trans hch')
    exact absent x hx cn hcn (.inl hme) hme
  refine w.congr h.graph (fun y hy => ?_) fun c' _ => ?_
  · obtain ⟨cn, ch', gn, hl⟩ := hy.link h.graph
    refine Bool.eq_iff_iff.mpr ?_
    rw [leaving_concat hl.memb]
    refine ⟨.inl, fun hor => ?_⟩
    rcases hor with hl' | ⟨rfl, rfl | e⟩
    · exact hl'
    · by_contra hstay
      rw [Bool.not_eq_true] at hstay
      obtain ⟨ch'', hch'', hx, hcn⟩ := w.member hc hl.chan hl.in_chan hstay
      obtain rfl := Option.some.inj (hch.symm.trans hch'')
      obtain ⟨cn', gn', hl', -⟩ := (w.graph h.graph).link_of_chan hc hch hx
      obtain rfl := Option.some.inj (hl'.memb.symm.trans (hcn.trans hl.memb))
      exact absent y hx _ hl'.memb hl'.known rfl
    · exact absurd e hme
  · refine Bool.eq_iff_iff.mpr ?_
    rw [leftByUser_concat]
    exact ⟨.inl, fun e => e.resolve_right fun e => hme e.2⟩

/-- One pair of a line takes out what it names. -/
theorem kickChannel_without (h : Named m s) (hu : UserPresent s)
    (w : Without s (leaving s D) (leftByUser D) s₁)
    (hp : isPrefix p.2.head? (some s.info) = false) :
    ∃ s', kickChannel s₁ p = .ok s' ∧
      Without s (leaving s (D ++ (denotes m s s₁.channels p).toList))
        (leftByUser (D ++ (denotes m s s₁.channels p).toList)) s' := by
  have h₁ := w.named h
  rw [kickChannel, findChannel_without h w, ok_bind, denotes]
  cases hc : s₁.channels.find? fun c => Ctrlproxy.channelKey m s c = some (m.fold p.1) with
  | none => exact ⟨s₁, rfl, by simpa using w⟩
  | some c =>
      have hcs : c ∈ s₁.channels := List.mem_of_find?_eq_some hc
      obtain ⟨ch, hch, -⟩ := h₁.graph.chan_live c hcs
      simp only
      rw [findChannelNick_plain h₁.graph hcs hch (w.info.symm ▸ hp),
        findMember_eq h₁.graph h₁.mapping h₁.unique hcs hch, ok_bind]
      cases hx : ch.nicks.find? fun x => membKey m s₁ x = some (m.fold p.2) with
      | none =>
          refine ⟨s₁, rfl, ?_⟩
          cases hfind : (meRef :: s.nicks).find? fun g =>
              Ctrlproxy.nickKey m s g = some (m.fold p.2) with
          | none => simpa using w
          | some g =>
              have hkey : Ctrlproxy.nickKey m s g = some (m.fold p.2) := by
                have := List.find?_some hfind
                exact of_decide_eq_true this
              exact w.departsNot h hu hcs hch hkey fun x hmem e =>
                List.find?_eq_none.mp hx x hmem (decide_eq_true e)
      | some x =>
          obtain ⟨cn, gn, hl, rfl⟩ := h₁.graph.link_of_chan hcs hch (List.mem_of_find?_eq_some hx)
          have hkey : membKey m s₁ x = some (m.fold p.2) := by
            have := List.find?_some hx
            exact of_decide_eq_true this
          rw [membKey_eq hl.memb, w.nickKey h.graph hl.known] at hkey
          have hk := w.known hl.known
          have hfind := findNetworkNick_known h.mapping h.unique hk hkey
          rw [findNetworkNick_eq h.mapping h.unique, Except.ok.injEq] at hfind
          have w₂ := w.remove h.graph hl
          have hme : Ctrlproxy.nickKey m (removeMemb s₁ x cn ch gn) meRef = some (m.fold p.2) ↔
              cn.globalNick = meRef := by
            rw [w₂.nickKey h.graph (.inl rfl)]
            refine ⟨fun e => h.unique.nickKey_inj hk (.inl rfl) (hkey.trans e.symm), fun e => ?_⟩
            rw [← e, hkey]
          simp only [hfind, freeChannelNick_eq h₁.graph hl, ok_bind, leaveChannel_eq (w₂.named h),
            hme]
          by_cases e : cn.globalNick = meRef
          · rw [if_pos e]
            simp only [e]
            exact w.userDeparts h hl
          · rw [if_neg e]
            exact ⟨_, rfl, w.departs h hl e⟩

/-- A PART does what a KICK does: the user is on each channel, so its search for the member does
not come back without the user. -/
theorem partChannel_eq (h : Named m s) (hu : UserPresent s)
    (hp : isPrefix p.2.head? (some s.info) = false) : partChannel p.2 s p.1 = kickChannel s p := by
  rw [partChannel, kickChannel]
  cases hc : findChannel s p.1 with
  | error e => rfl
  | ok r =>
      cases r with
      | none => rfl
      | some c =>
          simp only [ok_bind]
          have hcs : c ∈ s.channels := (findFirst_some hc).1
          obtain ⟨ch, hch, x, hx, cn, hcn, hme⟩ := hu c hcs
          rw [findChannelNick_plain h.graph hcs hch hp,
            findMember_eq h.graph h.mapping h.unique hcs hch, ok_bind, ok_bind]
          cases hfind : ch.nicks.find? fun x => membKey m s x = some (m.fold p.2) with
          | some x => rfl
          | none =>
              have hno := List.find?_eq_none.mp hfind x hx
              rw [membKey_eq hcn, hme, decide_eq_true_iff] at hno
              change leaveChannel s c p.2 = _
              rw [leaveChannel_eq h, if_neg hno]
              rfl

/-! ### All pairs of a line -/

/-- The channels that are left after one pair. -/
theorem channels_after (w : Without s (leaving s D) (leftByUser D) s₁)
    {d : Option (Ref × Ref)} (h : Graph s)
    (w' : Without s (leaving s (D ++ d.toList)) (leftByUser (D ++ d.toList)) s₂) :
    s₂.channels = d.elim s₁.channels fun d =>
      if d.2 = meRef then s₁.channels.erase d.1 else s₁.channels := by
  rw [w'.channels]
  cases d with
  | none => simpa using w.channels.symm
  | some d =>
      change s.channels.filter (fun c => !leftByUser (D ++ [d]) c) = ite _ _ _
      split
      · next e =>
        rw [w.channels, (h.channels_nodup.filter _).erase_eq_filter, List.filter_filter]
        refine List.filter_congr fun c _ => Bool.eq_iff_iff.mpr ?_
        rw [Bool.not_eq_true', ← Bool.not_eq_true, leftByUser_concat]
        simp [e]
        tauto
      · next e =>
        rw [w.channels]
        refine List.filter_congr fun c _ => Bool.eq_iff_iff.mpr ?_
        rw [Bool.not_eq_true', ← Bool.not_eq_true, leftByUser_concat, Bool.not_eq_true',
          ← Bool.not_eq_true]
        exact not_congr ⟨fun e' => e'.resolve_right fun e' => e e'.2.symm, .inl⟩

/-- A line takes out what its pairs name. -/
theorem foldlM_without (h : Named m s) (hu : UserPresent s)
    {f : NetworkState → Str × Str → Except Fault NetworkState} {ps : List (Str × Str)}
    (hp : ∀ p ∈ ps, isPrefix p.2.head? (some s.info) = false)
    (hf : ∀ s₁ p, p ∈ ps → Named m s₁ → UserPresent s₁ → s₁.info = s.info →
      f s₁ p = kickChannel s₁ p)
    (w : Without s (leaving s D) (leftByUser D) s₁) :
    ∃ s', ps.foldlM f s₁ = .ok s' ∧ Without s (leaving s (D ++ departures m s s₁.channels ps))
      (leftByUser (D ++ departures m s s₁.channels ps)) s' := by
  induction ps generalizing s₁ D with
  | nil => exact ⟨s₁, rfl, by simpa using w⟩
  | cons p ps ih =>
      obtain ⟨s₂, hs₂, w₂⟩ := kickChannel_without h hu w (hp p List.mem_cons_self)
      have hf₂ := hf s₁ p List.mem_cons_self (w.named h) (userPresent_without w h.graph hu) w.info
      obtain ⟨s', hs', w'⟩ := ih (fun q hq => hp q (List.mem_cons_of_mem _ hq))
        (fun s₁ q hq => hf s₁ q (List.mem_cons_of_mem _ hq)) w₂
      have hdep : departures m s s₁.channels (p :: ps) =
          (denotes m s s₁.channels p).toList ++ departures m s s₂.channels ps := by
        rw [channels_after w h.graph w₂, departures_cons]
        cases denotes m s s₁.channels p <;> rfl
      refine ⟨s', ?_, ?_⟩
      · rw [List.foldlM_cons, hf₂, hs₂]
        exact hs'
      · rw [hdep, ← List.append_assoc]
        exact w'

/-! ### Lines -/

/-- The pairs of channel and nick that a PART or KICK line names. -/
def departing (l : IrcLine) : List (Str × Str) :=
  let names := fun i => gStrsplit (l.args[i]?.getD []) (chr ',')
  match commandOf l with
  | some .part => (names 1).map fun c => (c, (l.origin.getD []).takeWhile (· ≠ chr '!'))
  | some .kick => (names 1).zip (names 2)
  | _ => []

/-- A PART or KICK line handles its pairs in turn. -/
theorem handleDeparture_eq {l : IrcLine} (hk : commandOf l = some .part ∨ commandOf l = some .kick)
    (ho : l.origin ≠ none) (now : Long) : ∃ f : NetworkState → Str × Str → Except Fault NetworkState,
      (f = kickChannel ∨ f = fun s p => partChannel p.2 s p.1) ∧
      stateStep s (now, l) = (departing l).foldlM f s := by
  obtain ⟨o, ho⟩ := Option.ne_none_iff_exists'.mp ho
  have harg : ∀ {k i}, commandOf l = some k → i ≤ k.minArgs →
      ∃ w, l.args[i]? = some w ∧ l.argStr i = .ok w := by
    intro k i hk hi
    have hlt : i < l.args.length := Nat.lt_of_le_of_lt hi (commandOf_argc hk)
    exact ⟨_, List.getElem?_eq_getElem hlt, IrcLine.argStr_eq (List.getElem?_eq_getElem hlt)⟩
  rcases hk with hk | hk
  · refine ⟨_, .inr rfl, ?_⟩
    obtain ⟨w, hw, hws⟩ := harg hk (i := 1) (by decide)
    rw [stateStep_handler hk]
    change handlePart s l = _
    simp only [handlePart, ho, lineGetNick, ok_bind, hws, departing, hk, hw, Option.getD_some,
      List.foldlM_map]
  · refine ⟨_, .inl rfl, ?_⟩
    obtain ⟨w, hw, hws⟩ := harg hk (i := 1) (by decide)
    obtain ⟨w₂, hw₂, hws₂⟩ := harg hk (i := 2) (by decide)
    rw [stateStep_handler hk]
    change handleKick s l = _
    simp only [handleKick, ho, ok_bind, hws, hws₂, departing, hk, hw, hw₂, Option.getD_some]

/-- A pair is of the names of the channel and the nick. -/
def Names (m : Casemapping) (s : NetworkState) (p : Str × Str) (c g : Ref) : Prop :=
  channelKey m s c = some (m.fold p.1) ∧ nickKey m s g = some (m.fold p.2)

/-- No two channels have the same folded name. -/
def DistinctChannels (m : Casemapping) (s : NetworkState) : Prop :=
  ∀ c ∈ s.channels, ∀ c' ∈ s.channels, channelKey m s c = channelKey m s c' → c = c'

theorem Names.denotes (h : Named m s) (hd : DistinctChannels m s) {chans : List Ref}
    (hsub : chans ⊆ s.channels) (hc : c ∈ chans) (hk : Known s g) :
    Names m s p c g ↔ denotes m s chans p = some (c, g) := by
  constructor
  · rintro ⟨hckey, hgkey⟩
    have hfind : chans.find? (fun c => channelKey m s c = some (m.fold p.1)) = some c := by
      have := findFirst_unique (ε := Fault) (p := fun c => .ok (decide (channelKey m s c = some (m.fold p.1))))
        (q := fun c => decide (channelKey m s c = some (m.fold p.1))) (fun _ _ => rfl) hc
        (decide_eq_true hckey) fun c' hc' e =>
          hd c' (hsub hc') c (hsub hc) ((of_decide_eq_true e).trans hckey.symm)
      rw [findFirst_eq_find? fun _ _ => rfl] at this
      exact Except.ok.inj this
    have hfind' := findNetworkNick_known h.mapping h.unique hk hgkey
    rw [findNetworkNick_eq h.mapping h.unique, Except.ok.injEq] at hfind'
    rw [Ctrlproxy.denotes, hfind, hfind']
    rfl
  · intro e
    obtain ⟨c', hc', e⟩ := Option.bind_eq_some_iff.mp e
    obtain ⟨g', hg', e⟩ := Option.bind_eq_some_iff.mp e
    cases e
    have hckey := List.find?_some hc'
    have hgkey := List.find?_some hg'
    exact ⟨of_decide_eq_true hckey, of_decide_eq_true hgkey⟩

/-- Where channel names are distinct, a membership goes exactly when a pair names it, or names the
user on its channel. -/
theorem mem_departures (h : Named m s) (hd : DistinctChannels m s) (hk : Known s g)
    {chans : List Ref} (hnd : chans.Nodup) (hsub : chans ⊆ s.channels) (hc : c ∈ chans)
    (ps : List (Str × Str)) :
    ((c, g) ∈ departures m s chans ps ∨ (c, meRef) ∈ departures m s chans ps) ↔
      ∃ p ∈ ps, Names m s p c g ∨ Names m s p c meRef := by
  induction ps generalizing chans with
  | nil => simp
  | cons p ps ih =>
      have hg := Names.denotes (p := p) h hd hsub hc hk
      have hme := Names.denotes (p := p) h hd hsub hc (.inl rfl)
      rw [List.exists_mem_cons_iff, hg, hme, departures_cons]
      cases hden : denotes m s chans p with
      | none =>
          simp only [reduceCtorEq, or_self, false_or]
          exact ih hnd hsub hc
      | some d =>
          obtain ⟨c₀, g₀⟩ := d
          simp only [List.mem_cons, Option.some.injEq]
          by_cases hgone : g₀ = meRef ∧ c₀ = c
          · obtain ⟨rfl, rfl⟩ := hgone
            exact iff_of_true (.inr (.inl rfl)) (.inl (.inr rfl))
          · -- the channel is still there for the pairs to come
            have hc' : c ∈ if g₀ = meRef then chans.erase c₀ else chans := by
              split
              · next e => exact hnd.mem_erase_iff.mpr ⟨fun e' => hgone ⟨e, e'.symm⟩, hc⟩
              · exact hc
            have hnd' : (if g₀ = meRef then chans.erase c₀ else chans).Nodup := by
              split
              · exact hnd.erase _
              · exact hnd
            have hsub' : (if g₀ = meRef then chans.erase c₀ else chans) ⊆ s.channels := by
              split
              · exact fun _ hx => hsub (List.mem_of_mem_erase hx)
              · exact hsub
            rw [← ih hnd' hsub' hc', eq_comm (a := (c₀, g₀)), eq_comm (a := (c₀, g₀))]
            tauto

/-- **What leaves with a PART or a KICK**: in a consistent state with unique names and the user on
each channel, the line takes out the memberships its pairs name, the channels in which they name
the user, and the nicks that have nothing left, and leaves all else as it is. -/
theorem handleDeparture_without (h : Named m s) (hu : UserPresent s) {l : IrcLine} (now : Long)
    (hk : commandOf l = some .part ∨ commandOf l = some .kick) (ho : l.origin ≠ none)
    (hp : ∀ p ∈ departing l, isPrefix p.2.head? (some s.info) = false) :
    ∃ s' D, stateStep s (now, l) = .ok s' ∧ D = departures m s s.channels (departing l) ∧
      Without s (leaving s D) (leftByUser D) s' ∧
      (DistinctChannels m s → ∀ c ∈ s.channels, ∀ g, Known s g →
        (((c, g) ∈ D ∨ (c, meRef) ∈ D) ↔ ∃ p ∈ departing l, Names m s p c g ∨ Names m s p c meRef)) := by
  obtain ⟨f, hf, hstep⟩ := handleDeparture_eq (s := s) hk ho now
  have none_left : Without s (leaving s []) (leftByUser []) s := by
    refine (Without.refl h.graph).congr h.graph (fun x hx => ?_) fun c _ => ?_
    · obtain ⟨cn, ch, gn, hl⟩ := hx.link h.graph
      simp [leaving, hl.memb]
    · simp [leftByUser]
  have hbody : ∀ s₁ p, p ∈ departing l → Named m s₁ → UserPresent s₁ → s₁.info = s.info →
      f s₁ p = kickChannel s₁ p := by
    intro s₁ p hmem h₁ hu₁ hinfo
    rcases hf with rfl | rfl
    · rfl
    · exact partChannel_eq h₁ hu₁ (hinfo ▸ hp p hmem)
  obtain ⟨s', hs', w⟩ := foldlM_without h hu hp hbody none_left
  refine ⟨s', _, hstep.trans hs', rfl, w, fun hd c hc g hk => ?_⟩
  exact mem_departures h hd hk h.graph.channels_nodup (fun _ => id) hc _

end

/-- The user is on the channel that both have joined. -/
theorem twoJoined_userPresent {s : NetworkState} (hs : twoJoined = .ok s) : UserPresent s := by
  have run : twoJoined.map (fun s => decide (s.channels = [1] ∧
      (s.chanHeap 1).any (fun ch => decide (2 ∈ ch.nicks)) = true ∧
      (s.membHeap 2).any (fun cn => decide (cn.globalNick = meRef)) = true)) = .ok true := by
    decide +kernel
  rw [hs] at run
  obtain ⟨hcs, hch, hcn⟩ := of_decide_eq_true (Except.ok.inj run)
  intro c hc
  rw [hcs] at hc
  obtain rfl := List.mem_singleton.mp hc
  obtain ⟨ch, hch, hx⟩ := (Option.any_eq_true _ _).mp hch
  obtain ⟨cn, hcn, hme⟩ := (Option.any_eq_true _ _).mp hcn
  exact ⟨ch, hch, 2, of_decide_eq_true hx, cn, hcn, of_decide_eq_true hme⟩

/-- A nick leaves a channel the line names twice, and is not known any more. -/
def joeParts : IrcLine := (inputOf ":joe!u@h PART #x,#c,#c").2

theorem handleDeparture_without_part : ∃ s s' D, twoJoined = .ok s ∧
    stateStep s (long0, joeParts) = .ok s' ∧ s'.nicks = [] ∧
    D = departures .unknown s s.channels (departing joeParts) ∧
    Without s (leaving s D) (leftByUser D) s' := by
  have run : (twoJoined >>= fun s => do
      let s' ← stateStep s (long0, joeParts)
      pure (decide (s'.nicks = [] ∧ ∀ p ∈ departing joeParts,
        isPrefix p.2.head? (some s.info) = false))) = .ok true := by decide +kernel
  obtain ⟨s, hs, run⟩ := bind_eq_ok run
  obtain ⟨s₁, hs₁, hr⟩ := bind_eq_ok run
  obtain ⟨hnicks, hp⟩ := of_decide_eq_true (Except.ok.inj hr)
  obtain ⟨s', D, hs', hD, w, -⟩ := handleDeparture_without (twoJoined_named hs)
    (twoJoined_userPresent hs) long0 (.inl (by decide +kernel)) (by decide +kernel) hp
  obtain rfl := Except.ok.inj (hs₁.symm.trans hs')
  exact ⟨s, s₁, D, hs, hs₁, hnicks, hD, w⟩

end Ctrlproxy
