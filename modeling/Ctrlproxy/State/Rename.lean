import Mathlib.Data.List.Find
import Ctrlproxy.State.Lookup

/-!
# State — a renamed nick keeps its memberships

A NICK line changes one object: the nick it finds by the old name gets the new one.  Channels and
memberships point to nicks by address, so the nick stays where it was, and is found there by its
new name (`handleNick_renames`).
-/

namespace Ctrlproxy
open Outcome

/-- `s'` is `s` with the nick at `g` renamed from `old` to `new`. -/
structure Renamed (s s' : NetworkState) (g : Ref) (old new : Str) : Prop where
  /-- The object found by the old name is found by the new one. -/
  found : findNetworkNick s' new = .ok (some g)
  /-- It has the new name, and its modes, its query flag and its memberships are as before. -/
  object : ∃ n n', s.nickHeap g = some n ∧ s'.nickHeap g = some n' ∧ n'.nick = some new ∧
    n' = { n with nick := n'.nick, hostmask := n'.hostmask }
  /-- The old name is not found any more, unless it is the new one up to case. -/
  forgotten : ¬ SameNick s old new → findNetworkNick s' old = .ok none ∧
    ∀ c ∈ s'.channels, findChannelNick s' c old = .ok none
  /-- The new name is found on a channel exactly where the old one was, as the same membership. -/
  members : ∀ c ∈ s'.channels, findChannelNick s' c new = findChannelNick s c old
  /-- Memberships with their modes, channels and all other nicks are as before. -/
  memberships : s'.membHeap = s.membHeap
  channels : s'.channels = s.channels ∧ s'.chanHeap = s.chanHeap
  others : s'.nicks = s.nicks ∧ ∀ g', g' ≠ g → s'.nickHeap g' = s.nickHeap g'
  rest : s'.info = s.info ∧ s'.isAway = s.isAway

/-- `network_nick_set_nick` changes the name and the hostmask. -/
theorem networkNickSetNick_eq (n : NetworkNick) (new : Str) :
    (networkNickSetNick n new).nick = some new ∧ networkNickSetNick n new =
      { n with nick := some new, hostmask := (networkNickSetNick n new).hostmask } := by
  unfold networkNickSetNick
  split
  · next h => exact ⟨h, by rw [← h]⟩
  · exact ⟨rfl, rfl⟩

section
variable {m : Casemapping} {s : NetworkState} {g : Ref} {n n' : NetworkNick} {old new : Str}

theorem nickKey_set_same (hnick : n'.nick = some new) :
    nickKey m (s.setNick g n') g = some (m.fold new) :=
  nickKey_eq (nameOf_set_same.trans hnick)

theorem nickKey_set_other {g' : Ref} (hne : g' ≠ g) :
    nickKey m (s.setNick g n') g' = nickKey m s g' :=
  nickKey_congr (Heap.set_other hne)

/-- Whether a member has a name, before and after: its nick has the old name before exactly when
it has the new one after. -/
theorem membKey_renamed (h : Named m s) {c x : Ref} {ch : ChannelState} (hc : c ∈ s.channels)
    (hch : s.chanHeap c = some ch) (hx : x ∈ ch.nicks) (hk : Known s g)
    (hold : nickKey m s g = some (m.fold old)) (hnick : n'.nick = some new)
    (hfree : ∀ g', Known s g' → g' ≠ g → nickKey m s g' ≠ some (m.fold new)) :
    membKey m (s.setNick g n') x = some (m.fold new) ↔ membKey m s x = some (m.fold old) := by
  obtain ⟨cn, gn, hl, -⟩ := h.graph.link_of_chan hc hch hx
  have hl' : (s.setNick g n').membHeap x = some cn := hl.memb
  rw [membKey_eq hl.memb, membKey_eq hl']
  by_cases e : cn.globalNick = g
  · rw [e, nickKey_set_same hnick, hold]
    exact ⟨fun _ => rfl, fun _ => rfl⟩
  · rw [nickKey_set_other e]
    refine ⟨fun he => absurd he (hfree _ hl.known e), fun he => absurd ?_ e⟩
    exact h.unique.nickKey_inj hl.known hk (he.trans hold.symm)

/-- The state after `network_nick_set_nick`. -/
theorem setNick_renamed (h : Named m s) (hk : Known s g) (hn : s.nickHeap g = some n)
    (hold : nickKey m s g = some (m.fold old)) (hnick : n'.nick = some new)
    (hrest : n' = { n with nick := some new, hostmask := n'.hostmask })
    (hpold : isPrefix old.head? (some s.info) = false)
    (hpnew : isPrefix new.head? (some s.info) = false)
    (hfree : ∀ g', Known s g' → g' ≠ g → nickKey m s g' ≠ some (m.fold new)) :
    Renamed s (s.setNick g n') g old new := by
  have hgraph : Graph (s.setNick g n') :=
    h.graph.setNick hn (by rw [hrest]) (by rw [hrest]; exact id)
  have hunique : Unique m (s.setNick g n') := by
    refine h.unique.setName hnick fun g' a hg' hne ha e => hfree g' hg' hne ?_
    exact (nickKey_eq ha).trans (congrArg some e)
  refine ⟨?_, ⟨n, n', hn, Heap.set_same _ _ _, hnick, by rw [hnick]; exact hrest⟩, ?_, ?_, rfl,
    ⟨rfl, rfl⟩, ⟨rfl, fun g' hne => Heap.set_other hne⟩, ⟨rfl, rfl⟩⟩
  · exact findNetworkNick_known h.mapping hunique hk (nickKey_set_same hnick)
  · intro hne
    have hgone : ∀ g', Known s g' → nickKey m (s.setNick g n') g' ≠ some (m.fold old) := by
      intro g' hg' e
      by_cases hgg : g' = g
      · rw [hgg, nickKey_set_same hnick, Option.some_inj] at e
        exact hne (h.sameNick_iff.mpr e.symm)
      · rw [nickKey_set_other hgg] at e
        exact hgg (h.unique.nickKey_inj hg' hk (e.trans hold.symm))
    refine ⟨findNetworkNick_unknown h.mapping hunique hgone, fun c hc => ?_⟩
    obtain ⟨ch, hch, -⟩ := hgraph.chan_live c hc
    rw [findChannelNick_plain hgraph hc hch hpold]
    refine findMember_absent hgraph h.mapping hunique hc hch fun x hx => ?_
    obtain ⟨cn, gn, hl, -⟩ := hgraph.link_of_chan hc hch hx
    rw [membKey_eq hl.memb]
    exact hgone _ hl.known
  · intro c hc
    obtain ⟨ch, hch, -⟩ := h.graph.chan_live c hc
    have hch' : (s.setNick g n').chanHeap c = some ch := hch
    rw [findChannelNick_plain hgraph hc hch' hpnew, findChannelNick_plain h.graph hc hch hpold,
      findMember_eq hgraph h.mapping hunique hc hch',
      findMember_eq h.graph h.mapping h.unique hc hch]
    refine congrArg Except.ok (List.find?_congr fun x hx => ?_)
    exact decide_eq_decide.mpr (membKey_renamed h hc hch hx hk hold hnick hfree)

/-- The line `:old!uh NICK new`. -/
def renameLine (old uh new : Str) (e : HasEndcolon) : IrcLine :=
  { origin := some (old ++ chr '!' :: uh), args := [str "NICK", new], hasEndcolon := e }

/-- **A rename preserves memberships**: in a consistent state with unique names, a NICK line that
renames a known nick to a name no other nick has leaves the same state with the new name in the
place of the old one. -/
theorem handleNick_renames (h : Named m s) (now : Long) (uh : Str) (e : HasEndcolon)
    (hbang : chr '!' ∉ old) (hg : findNetworkNick s old = .ok (some g))
    (hpold : isPrefix old.head? (some s.info) = false)
    (hpnew : isPrefix new.head? (some s.info) = false)
    (hfree : ∀ g' a, Known s g' → g' ≠ g → nameOf s g' = some a → ¬ SameNick s a new) :
    ∃ s', stateStep s (now, renameLine old uh new e) = .ok s' ∧ Renamed s s' g old new := by
  obtain ⟨hk, hold⟩ := findNetworkNick_found h.mapping hg
  obtain ⟨n, -, hn, -⟩ := h.unique.live hk
  obtain ⟨hnick, hrest⟩ := networkNickSetNick_eq n new
  have hfree' : ∀ g', Known s g' → g' ≠ g → nickKey m s g' ≠ some (m.fold new) := by
    intro g' hg' hne e
    obtain ⟨a, ha⟩ := h.unique.named g' hg'
    rw [nickKey_eq ha, Option.some_inj] at e
    exact hfree g' a hg' hne ha (h.sameNick_iff.mpr e)
  refine ⟨s.setNick g (networkNickSetNick n new), ?_,
    setNick_renamed h hk hn hold hnick hrest hpold hpnew hfree'⟩
  have hcmd : commandOf (renameLine old uh new e) = some .nick := by
    rw [commandOf]
    rfl
  have hnickname : lineGetNick (renameLine old uh new e) = .ok old :=
    congrArg Except.ok (takeWhile_bang hbang)
  rw [stateStep_handler hcmd]
  change handleNick s (renameLine old uh new e) = _
  simp only [handleNick, hnickname, ok_bind, findAddNetworkNick, hg, pure_eq_ok]
  change s.modifyNick g (fun n => networkNickSetNick n new) = _
  rw [NetworkState.modifyNick, NetworkState.nick_eq hn]
  rfl

end

theorem handleNick_renames_joe : ∃ s s', twoJoined = .ok s ∧
    stateStep s (long0, renameLine (str "joe") (str "u@h") (str "Joe2") .withColon) = .ok s' ∧
    Renamed s s' 3 (str "joe") (str "Joe2") := by
  have run : twoJoined.map (fun s => decide (s.nicks = [3] ∧ nameOf s meRef = some (str "me") ∧
      irccmp (some s.info) (some (str "me")) (some (str "Joe2")) ≠ .ok 0 ∧
      findNetworkNick s (str "joe") = .ok (some 3) ∧
      isPrefix (str "joe").head? (some s.info) = false ∧
      isPrefix (str "Joe2").head? (some s.info) = false)) = .ok true := by decide +kernel
  obtain ⟨s, hs, hr⟩ := map_eq_ok run
  obtain ⟨hnicks, hme, hdiff, hjoe, hold, hnew⟩ := of_decide_eq_true hr
  have hfree : ∀ g a, Known s g → g ≠ 3 → nameOf s g = some a → ¬ SameNick s a (str "Joe2") := by
    rintro g a (rfl | hg) hne ha
    · cases hme.symm.trans ha
      exact hdiff
    · rw [hnicks] at hg
      exact absurd (List.mem_singleton.mp hg) hne
  obtain ⟨s', hs', hren⟩ := handleNick_renames (twoJoined_named hs) long0 (str "u@h") .withColon
    (by decide +kernel) hjoe hold hnew hfree
  exact ⟨s, s', hs, hs', hren⟩

end Ctrlproxy
