import Ctrlproxy.State.Steps

/-!
# State — the membership graph of every reachable state

`Membership s` says of the lists and pointers of a state what the code relies on: every member of
a channel points back to it, is in the list of its nick, and is there once; every membership of a
nick is in the list of its channel; no object is listed twice; the user's own nick is never freed.
It follows from `Graph`, which every edit keeps.
-/

namespace Ctrlproxy
open Outcome

/-- The two-way membership graph of a state is consistent. -/
structure Membership (s : NetworkState) : Prop where
  members : ∀ c ∈ s.channels, ∃ ch, s.chanHeap c = some ch ∧ ch.network = true ∧
    ∀ m ∈ ch.nicks, ∃ cn gn, s.membHeap m = some cn ∧ cn.channel = c ∧
      (cn.globalNick = meRef ∨ cn.globalNick ∈ s.nicks) ∧ s.nickHeap cn.globalNick = some gn ∧
      ch.nicks.count m = 1 ∧ gn.channelNicks.count m = 1
  memberships : ∀ g, g = meRef ∨ g ∈ s.nicks → ∃ gn, s.nickHeap g = some gn ∧
    ∀ m ∈ gn.channelNicks, ∃ cn ch, s.membHeap m = some cn ∧ cn.channel ∈ s.channels ∧
      s.chanHeap cn.channel = some ch ∧ m ∈ ch.nicks
  nicks_once : ∀ g ∈ s.nicks, s.nicks.count g = 1
  channels_once : ∀ c ∈ s.channels, s.channels.count c = 1
  me_live : ∃ me, s.nickHeap meRef = some me

theorem Graph.membership {s : NetworkState} (h : Graph s) : Membership s where
  members := by
    intro c hc
    obtain ⟨ch, hch, hw, hnd⟩ := h.chan_live c hc
    refine ⟨ch, hch, hw, fun m hm => ?_⟩
    obtain ⟨cn, gn, hl, rfl⟩ := h.link_of_chan hc hch hm
    obtain ⟨gn', hgn', hnd'⟩ := h.nick_live _ hl.known
    rw [hl.nick] at hgn'
    cases hgn'
    exact ⟨cn, gn, hl.memb, rfl, hl.known, hl.nick, List.count_eq_one_of_mem hnd hm,
      List.count_eq_one_of_mem hnd' hl.in_nick⟩
  memberships := by
    intro g hg
    obtain ⟨gn, hgn, -⟩ := h.nick_live g hg
    refine ⟨gn, hgn, fun m hm => ?_⟩
    obtain ⟨cn, ch, hl, -⟩ := h.link_of_nick hg hgn hm
    exact ⟨cn, ch, hl.memb, hl.chan_mem, hl.chan, hl.in_chan⟩
  nicks_once := fun _ => List.count_eq_one_of_mem h.nicks_nodup
  channels_once := fun _ => List.count_eq_one_of_mem h.channels_nodup
  me_live := by
    obtain ⟨me, hme, -⟩ := h.nick_live meRef (.inl rfl)
    exact ⟨me, hme⟩

/-! ### Runs -/

theorem networkStateInit_graph (nick username hostname : Str) :
    Graph (networkStateInit nick username hostname) where
  nicks_nodup := List.nodup_nil
  channels_nodup := List.nodup_nil
  me_not_listed := List.not_mem_nil
  me_query := by
    rintro n hn
    cases hn
    rfl
  chan_live := by
    intro c hc
    cases hc
  nick_live := by
    rintro g (rfl | hg)
    · exact ⟨_, rfl, List.nodup_nil⟩
    · cases hg
  to_nick := by
    intro c hc
    cases hc
  to_chan := by
    rintro g (rfl | hg) gn hgn m hm
    · cases hgn
      cases hm
    · cases hg
  fresh := by
    intro r hr
    exact ⟨Heap.set_other (Nat.lt_of_lt_of_le Nat.zero_lt_one hr).ne', rfl, rfl⟩

theorem Graph.announce {s : NetworkState} (h : Graph s) (i : NetworkInfo) :
    Graph { s with info := i } :=
  ⟨h.1, h.2, h.3, h.4, h.5, h.6, h.7, h.8, h.9⟩

theorem Step.graph {s s' : NetworkState} {l : IrcLine} (h : Step s l s') (hg : Graph s) :
    Graph s' := by
  cases h with
  | edits e => exact e.graph hg
  | rename _ _ hn => exact hg.setNick hn rfl fun hq => hq
  | info i _ => exact hg.announce i

/-- Every state a run reaches has a consistent graph, whatever the lines. -/
theorem reach_graph {ok : NetworkState → Input → Prop} {nick username hostname : Str}
    {s : NetworkState} (h : Reach stateStep ok (networkStateInit nick username hostname) s) :
    Graph s :=
  h.invariant (networkStateInit_graph _ _ _) fun _ i hg _ =>
    (stateStep_step hg i).mono (fun _ hs => hs.graph hg) fun _ _ => trivial

/-- **The membership graph is consistent in every reachable state**: any lines, as long as no
handler aborts. -/
theorem reachable_membership {nick username hostname : Str} {s : NetworkState}
    (h : Reach stateStep (fun _ _ => True) (networkStateInit nick username hostname) s) :
    Membership s :=
  (reach_graph h).membership

/-! ### Lines -/

/-- The handler of a line is chosen by its first argument and their number. -/
theorem commandOf_congr {l l' : IrcLine} (hh : l'.args.head? = l.args.head?)
    (hn : l'.argc = l.argc) : commandOf l' = commandOf l := by
  unfold commandOf
  rw [hn]
  cases h : l.args with
  | nil =>
      rw [h, List.head?_nil, List.head?_eq_none_iff] at hh
      rw [hh]
  | cons a as =>
      rw [h] at hh
      obtain ⟨as', h'⟩ := List.head?_eq_some_iff.mp hh
      rw [h']

/-- A line with an entry of the table for its command and enough arguments selects its handler. -/
theorem commandOf_known {l : IrcLine} {cmd w : Str} {as : List Str} {n : ℕ} {k : Command}
    (hl : l.args = cmd :: as)
    (hfind : (ircCommands.find? fun e => baseEq (some cmd) e.1) = some (w, n, k))
    (hn : n ≤ as.length) : commandOf l = some k := by
  have hargc : n < l.argc := by
    rw [IrcLine.argc, hl, List.length_cons]
    omega
  rw [commandOf, hl]
  dsimp only
  rw [hfind]
  dsimp only
  rw [if_pos hargc]

/-- A line as `irc_parse_line` reads it, handled at time 0. -/
def inputOf (w : String) : Input :=
  (long0, (ircParseLine (str w)).getD { origin := none, args := [], hasEndcolon := .colonUnknown })

theorem reachable_membership_join : ∃ s,
    Reach stateStep (fun _ _ => True) (networkStateInit (str "me") (str "user") (str "host")) s ∧
      s.channels.length = 1 ∧ s.nicks.length = 1 ∧ Membership s := by
  let s₀ := networkStateInit (str "me") (str "user") (str "host")
  have run : (stateStep s₀ (inputOf ":joe!u@h JOIN #c")).map
      (fun s => (s.channels.length, s.nicks.length)) = .ok (1, 1) := by decide +kernel
  obtain ⟨s, hs, hlen⟩ := map_eq_ok run
  have hr : Reach stateStep (fun _ _ => True) s₀ s := .step .refl trivial hs
  exact ⟨s, hr, congrArg Prod.fst hlen, congrArg Prod.snd hlen, reachable_membership hr⟩

end Ctrlproxy
