import Ctrlproxy.Linestack.Codec
import Ctrlproxy.State.Nicks

/-!
# Linestack — the text of a snapshot

What a state must be like to be written (`Marshallable`), the text it is written as
(`stateText`), and that `MARSHALL_PUSH` writes that text and changes nothing.
-/

namespace Ctrlproxy
open Outcome

/-- A state that can be written and told from its text: its nicks have different names, none of
which begins with a prefix character; it announces what a fresh state does; lists are shorter than
`10 ^ 7`; no string has a line terminator in it. -/
structure Marshallable (s : NetworkState) : Prop where
  membership : Membership s
  info : s.info = networkInfoInit
  nicks : ∀ g, Known s g → ∀ n, s.nickHeap g = some n → NickWritable n ∧
    ∀ a ∈ n.nick, a ≠ [] ∧ isPrefix a.head? (some s.info) = false
  distinct : ∀ g g', Known s g → Known s g' → ∀ n n', s.nickHeap g = some n →
    s.nickHeap g' = some n' → irccmp (some s.info) n.nick n'.nick = .ok 0 → g = g'
  channels : ∀ c ∈ s.channels, ∀ ch, s.chanHeap c = some ch → ChannelWritable ch
  members : ∀ c ∈ s.channels, ∀ ch, s.chanHeap c = some ch → ch.nicks.length < 10 ^ 7 ∧
    ∀ m ∈ ch.nicks, ∀ cn, s.membHeap m = some cn → ModesWritable cn.modes
  nicks_length : s.nicks.length < 10 ^ 7
  channels_length : s.channels.length < 10 ^ 7

/-! ### Texts -/

/-- The text of the `i`-th member of a channel. -/
def memberText (s : NetworkState) (level i : ℕ) (m : Ref) : Str :=
  match s.membHeap m with
  | none => []
  | some cn => match s.nickHeap cn.globalNick with
      | none => []
      | some gn =>
          fieldText (level + 2) (indexName 10 i) none ++
          (fieldText (level + 3) (str "nick") gn.nick ++
          fieldText (level + 3) (str "modes") (mode2string cn.modes))

/-- The text of the members of a channel. -/
def membersText (s : NetworkState) (level : ℕ) (l : List Ref) : Str :=
  fieldText (level + 1) (str "nicks") none ++
  (fieldText (level + 2) (str "count") (some (decimal l.length)) ++ texts (memberText s level) 0 l)

/-- The text of a channel. -/
def channelText (s : NetworkState) (level : ℕ) (name : Str) (c : Ref) : Str :=
  match s.chanHeap c with
  | none => []
  | some ch =>
      fieldText level name none ++ (channelFieldsText level ch ++ membersText s level ch.nicks)

/-- The text of the nick at an address. -/
def nickTextAt (s : NetworkState) (level : ℕ) (name : Str) (g : Ref) : Str :=
  match s.nickHeap g with
  | none => []
  | some n => nickText level name n

/-- The text of a state. -/
def stateText (s : NetworkState) : Str :=
  nickTextAt s 0 (str "me") meRef ++
  (listText (fun i => nickTextAt s 1 (indexName 20 i)) 0 (str "nicks") s.nicks ++
  listText (fun i => channelText s 1 (indexName 20 i)) 0 (str "channels") s.channels)

/-! ### Writing -/

section
variable {s : NetworkState} {read : LineReader} {junk : Junk} {level : ℕ}

theorem nickTextAt_eq {g : Ref} {n : NetworkNick} (h : s.nickHeap g = some n) (level : ℕ)
    (name : Str) : nickTextAt s level name g = nickText level name n := by
  rw [nickTextAt, h]

theorem memberText_eq {m : Ref} {cn : ChannelNick} {gn : NetworkNick}
    (hm : s.membHeap m = some cn) (hg : s.nickHeap cn.globalNick = some gn) (level i : ℕ) :
    memberText s level i m = fieldText (level + 2) (indexName 10 i) none ++
      (fieldText (level + 3) (str "nick") gn.nick ++
      fieldText (level + 3) (str "modes") (mode2string cn.modes)) := by
  rw [memberText, hm]
  simp only [hg]

theorem channelText_eq {c : Ref} {ch : ChannelState} (h : s.chanHeap c = some ch) (level : ℕ)
    (name : Str) : channelText s level name c =
      fieldText level name none ++ (channelFieldsText level ch ++ membersText s level ch.nicks) := by
  rw [channelText, h]

/-- A member of a channel of a state that can be written, with its nick. -/
theorem Marshallable.member (h : Marshallable s) {c : Ref} (hc : c ∈ s.channels)
    {ch : ChannelState} (hch : s.chanHeap c = some ch) {m : Ref} (hm : m ∈ ch.nicks) :
    ∃ cn gn a, s.membHeap m = some cn ∧ s.nickHeap cn.globalNick = some gn ∧
      Known s cn.globalNick ∧ gn.nick = some a ∧ ModesWritable cn.modes ∧ NickWritable gn := by
  obtain ⟨ch', hch', -, hmem⟩ := h.membership.members c hc
  rw [hch] at hch'
  cases hch'
  obtain ⟨cn, gn, hcn, -, hk, hgn, -, -⟩ := hmem m hm
  have hw := (h.nicks _ hk gn hgn).1
  obtain ⟨a, ha⟩ := Option.ne_none_iff_exists'.mp hw.named
  exact ⟨cn, gn, a, hcn, hgn, hk, ha, (h.members c hc ch hch).2 m hm cn hcn, hw⟩

theorem pushMembers_ok (hread : ReadsLines read) {l : List Ref}
    (hl : ∀ m ∈ l, ∃ cn gn, s.membHeap m = some cn ∧ s.nickHeap cn.globalNick = some gn ∧
      ModesWritable cn.modes ∧ NickWritable gn) (i : ℕ) (t : Str) :
    pushMembers read level i l s t = .ok (true, t ++ texts (memberText s level) i l) := by
  induction l generalizing i t with
  | nil => simp [pushMembers, texts]
  | cons m l ih =>
      obtain ⟨cn, gn, hcn, hgn, hmodes, hnick⟩ := hl m List.mem_cons_self
      have nick : Carries (marshallString read (str "nick") (level + 3)) gn.nick _ :=
        marshallString_carries hread ⟨by decide, hnick.nick⟩
      have modes : Carries (marshallModes read (str "modes") (level + 3)) cn.modes _ :=
        marshallModes_carries hread (by decide) hmodes
      simp only [pushMembers, NetworkState.memb_eq hcn, ok_bind, NetworkState.nick_eq hgn,
        marshallStruct_push (ascii_indexName 10 i), nick.push, modes.push, Bool.and_self, if_true,
        texts, memberText_eq hcn hgn]
      rw [ih fun m hm => hl m (List.mem_cons_of_mem _ hm)]
      simp only [List.append_assoc]

theorem marshallChannelState_push (hread : ReadsLines read) (h : Marshallable s) {c : Ref}
    (hc : c ∈ s.channels) {name : Str} (hname : Ascii name) (t : Str) :
    marshallChannelState read junk name level .push s t c =
      .ok (true, s, t ++ channelText s level name c, c) := by
  obtain ⟨ch, hch, hw, -⟩ := h.membership.members c hc
  have count : Carries (marshallInt read (str "count") (level + 2)) (ch.nicks.length : ℤ) _ :=
    marshallInt_carries hread (by decide) (h.members c hc ch hch).1
  have same : s.setChan c { ch with network := true } = s := by
    have : { ch with network := true } = ch := by rw [← hw]
    rw [this, NetworkState.setChan, Heap.set_eq_self hch]
  have nicks : ∀ t, marshallStruct read .push (level + 1) (str "nicks") t = _ :=
    marshallStruct_push (by decide)
  have members : ∀ i t, pushMembers read level i ch.nicks s t =
      .ok (true, t ++ texts (memberText s level) i ch.nicks) := by
    refine pushMembers_ok hread fun m hm => ?_
    obtain ⟨cn, gn, a, hcn, hgn, -, -, hmodes, hnick⟩ := h.member hc hch hm
    exact ⟨cn, gn, hcn, hgn, hmodes, hnick⟩
  simp only [marshallChannelState, NetworkState.chan_eq hch, ok_bind, marshallStruct_push hname,
    (marshallChannelFields_carries hread (h.channels c hc ch hch)).1, same, nicks, count.push,
    members, channelText_eq hch, membersText, List.append_assoc]
  rfl

/-- **A snapshot is written** as the text of the state, and the state stays as it is. -/
theorem marshallNetworkState_push (hread : ReadsLines read) (h : Marshallable s) (t : Str) :
    marshallNetworkState read junk .push t s = .ok (true, t ++ stateText s, s) := by
  obtain ⟨me, hme⟩ := h.membership.me_live
  have hmew := (h.nicks meRef (.inl rfl) me hme).1
  have same : s.setNick meRef me = s := by rw [NetworkState.setNick, Heap.set_eq_self hme]
  have nicks : ∀ t, marshallGList read 0 (marshallNetworkNickP read junk) (str "nicks") 0 .push s t
      s.nicks = .ok (true, s, t ++ listText (fun i => nickTextAt s 1 (indexName 20 i)) 0
        (str "nicks") s.nicks, s.nicks) := by
    refine marshallGList_push hread (by decide) h.nicks_length ?_
    intro g hg i t
    obtain ⟨n, hn, -⟩ := h.membership.memberships g (.inr hg)
    have hw := (h.nicks g (.inr hg) n hn).1
    refine ⟨g, ?_⟩
    simp only [marshallNetworkNickP, NetworkState.nick_eq hn, ok_bind, nickTextAt_eq hn,
      (marshallNetworkNick_carries hread (ascii_indexName 20 i) hw).1]
    rfl
  have channels : ∀ t, marshallGList read 0 (marshallChannelState read junk) (str "channels") 0
      .push s t s.channels = .ok (true, s, t ++ listText
        (fun i => channelText s 1 (indexName 20 i)) 0 (str "channels") s.channels, s.channels) := by
    refine marshallGList_push hread (by decide) h.channels_length ?_
    intro c hc i t
    exact ⟨c, marshallChannelState_push hread h hc (ascii_indexName 20 i) t⟩
  have hname : Ascii (str "me") := by decide
  simp only [marshallNetworkState, NetworkState.nick_eq hme, ok_bind, reduceCtorEq, if_false,
    (marshallNetworkNick_carries hread hname hmew).1, same, nicks, channels, if_neg hmew.named,
    stateText, nickTextAt_eq hme, List.append_assoc]
  rfl

end

end Ctrlproxy
