import Ctrlproxy.State.Edits

/-!
# State — what is kept of the people

Few lines say anything about a user: their user name, host, server and real name stay with the nick,
the flags and the time of a WHO reply with the membership.  `PeopleKept` says that all of it is left
as it was, for everybody who is still there.  A `Silent` change is a sequence of quiet edits that
leaves it.
-/

namespace Ctrlproxy

/-- A nick says of its user what it said, and has a name if it had one. -/
structure SaysSame (n n' : NetworkNick) : Prop where
  username : n'.username = n.username
  hostname : n'.hostname = n.hostname
  server : n'.server = n.server
  fullname : n'.fullname = n.fullname
  hops : n'.hops = n.hops
  named : n.nick ≠ none → n'.nick ≠ none

/-- A membership is of the same nick, with the same WHO reply. -/
structure SameReply (cn cn' : ChannelNick) : Prop where
  globalNick : cn'.globalNick = cn.globalNick
  lastUpdate : cn'.lastUpdate = cn.lastUpdate
  lastFlags : cn'.lastFlags = cn.lastFlags

/-- Every nick and every membership says what it said, or it is new; and no reply came for a new
membership. -/
structure PeopleKept (s s' : NetworkState) : Prop where
  next : s.next ≤ s'.next
  nick : ∀ g n', s'.nickHeap g = some n' →
    (∃ n, s.nickHeap g = some n ∧ SaysSame n n') ∨ s.next ≤ g
  memb : ∀ m cn', s'.membHeap m = some cn' →
    (∃ cn, s.membHeap m = some cn ∧ SameReply cn cn') ∨
      (s.next ≤ m ∧ cn'.lastUpdate = long0 ∧ cn'.globalNick < s'.next)

theorem SaysSame.refl (n : NetworkNick) : SaysSame n n := ⟨rfl, rfl, rfl, rfl, rfl, id⟩

theorem SaysSame.trans {n n' n'' : NetworkNick} (h : SaysSame n n') (h' : SaysSame n' n'') :
    SaysSame n n'' where
  username := h'.username.trans h.username
  hostname := h'.hostname.trans h.hostname
  server := h'.server.trans h.server
  fullname := h'.fullname.trans h.fullname
  hops := h'.hops.trans h.hops
  named := h'.named ∘ h.named

theorem SameReply.refl (cn : ChannelNick) : SameReply cn cn := ⟨rfl, rfl, rfl⟩

theorem SameReply.trans {cn cn' cn'' : ChannelNick} (h : SameReply cn cn') (h' : SameReply cn' cn'') :
    SameReply cn cn'' where
  globalNick := h'.globalNick.trans h.globalNick
  lastUpdate := h'.lastUpdate.trans h.lastUpdate
  lastFlags := h'.lastFlags.trans h.lastFlags

namespace PeopleKept

variable {s s' s'' : NetworkState}

/-- No nick and no membership is touched. -/
theorem of_eq (hn : s.next ≤ s'.next) (hnick : s'.nickHeap = s.nickHeap)
    (hmemb : s'.membHeap = s.membHeap) : PeopleKept s s' where
  next := hn
  nick := fun _ n hg => .inl ⟨n, hnick ▸ hg, .refl n⟩
  memb := fun _ cn hm => .inl ⟨cn, hmemb ▸ hm, .refl cn⟩

theorem refl (s : NetworkState) : PeopleKept s s := of_eq le_rfl rfl rfl

theorem trans (h : PeopleKept s s') (h' : PeopleKept s' s'') : PeopleKept s s'' where
  next := h.next.trans h'.next
  nick := by
    intro g n'' hg
    rcases h'.nick g n'' hg with ⟨n', hn', e'⟩ | hle
    · exact (h.nick g n' hn').imp (fun ⟨n, hn, e⟩ => ⟨n, hn, e.trans e'⟩) id
    · exact .inr (h.next.trans hle)
  memb := by
    intro m cn'' hm
    rcases h'.memb m cn'' hm with ⟨cn', hcn', e'⟩ | ⟨hle, h0, hlt⟩
    · rcases h.memb m cn' hcn' with ⟨cn, hcn, e⟩ | ⟨hle, h0, hlt⟩
      · exact .inl ⟨cn, hcn, e.trans e'⟩
      · refine .inr ⟨hle, e'.lastUpdate.trans h0, ?_⟩
        rw [e'.globalNick]
        exact hlt.trans_le h'.next
    · exact .inr ⟨h.next.trans hle, h0, hlt⟩

/-- One nick is replaced by one that says the same. -/
theorem of_nick {g : Ref} {n n' : NetworkNick} (hnext : s.next ≤ s'.next)
    (hset : s'.nickHeap = s.nickHeap.set g n') (hn : s.nickHeap g = some n) (e : SaysSame n n')
    (hmemb : s'.membHeap = s.membHeap) : PeopleKept s s' where
  next := hnext
  nick := by
    intro x k hx
    rw [hset, Heap.set_apply] at hx
    split at hx
    · next hxg =>
      cases hx
      exact .inl ⟨n, hxg ▸ hn, e⟩
    · exact .inl ⟨k, hx, .refl k⟩
  memb := fun m cn hm => .inl ⟨cn, hmemb ▸ hm, .refl cn⟩

theorem setNick {g : Ref} {n n' : NetworkNick} (hn : s.nickHeap g = some n) (e : SaysSame n n') :
    PeopleKept s (s.setNick g n') :=
  of_nick le_rfl rfl hn e rfl

theorem setMemb {m : Ref} {cn cn' : ChannelNick} (hm : s.membHeap m = some cn)
    (e : SameReply cn cn') : PeopleKept s (s.setMemb m cn') where
  next := le_rfl
  nick := fun g n hg => .inl ⟨n, hg, .refl n⟩
  memb := by
    intro x k hx
    rw [NetworkState.setMemb_membHeap, Heap.set_apply] at hx
    split at hx
    · next hxm =>
      cases hx
      exact .inl ⟨cn, hxm ▸ hm, e⟩
    · exact .inl ⟨k, hx, .refl k⟩

/-- A nick is added. -/
theorem addNick (n : NetworkNick) : PeopleKept s (addNick s n) where
  next := Nat.le_succ _
  nick := by
    intro x k hx
    change s.nickHeap.set s.next n x = some k at hx
    rw [Heap.set_apply] at hx
    split at hx
    · next hxn => exact .inr hxn.ge
    · exact .inl ⟨k, hx, .refl k⟩
  memb := fun m cn hm => .inl ⟨cn, hm, .refl cn⟩

/-- A membership of a nick is added. -/
theorem addMemb {c g : Ref} {ch : ChannelState} {gn : NetworkNick} (hg : s.nickHeap g = some gn)
    (hlt : g < s.next) (modes : Modes) : PeopleKept s (addMemb s c g ch gn modes) where
  next := Nat.le_succ _
  nick := by
    intro x k hx
    change s.nickHeap.set g _ x = some k at hx
    rw [Heap.set_apply] at hx
    split at hx
    · next hxg =>
      cases hx
      exact .inl ⟨gn, hxg ▸ hg, ⟨rfl, rfl, rfl, rfl, rfl, id⟩⟩
    · exact .inl ⟨k, hx, .refl k⟩
  memb := by
    intro x k hx
    change s.membHeap.set s.next _ x = some k at hx
    rw [Heap.set_apply] at hx
    split at hx
    · next hxn =>
      cases hx
      exact .inr ⟨hxn.ge, rfl, Nat.lt_succ_of_lt hlt⟩
    · exact .inl ⟨k, hx, .refl k⟩

end PeopleKept

/-- A destructor says nothing new of those who stay. -/
theorem Trim.people {s s' : NetworkState} (e : Trim s s') : PeopleKept s s' := by
  cases e with
  | query hn => exact .setNick hn ⟨rfl, rfl, rfl, rfl, rfl, id⟩
  | @unlink m cn ch gn _ _ _ _ hgn =>
      have nick : PeopleKept s
          (s.setNick cn.globalNick { gn with channelNicks := gn.channelNicks.erase m }) :=
        .setNick hgn ⟨rfl, rfl, rfl, rfl, rfl, id⟩
      exact ⟨le_rfl, nick.nick, fun m cn hm => .inl ⟨cn, Heap.of_del hm, .refl cn⟩⟩
  | dropNick _ _ _ =>
      exact ⟨le_rfl, fun g n hg => .inl ⟨n, Heap.of_del hg, .refl n⟩, fun m cn hm => .inl ⟨cn, hm, .refl cn⟩⟩
  | dropChan _ _ _ => exact .of_eq le_rfl rfl rfl

theorem Trims.people {s s' : NetworkState} (h : Trims s s') : PeopleKept s s' := by
  induction h with
  | refl => exact .refl s
  | tail _ e ih => exact ih.trans e.people

/-! ### Silent changes -/

/-- Quiet edits that leave what is said of people. -/
structure Silent (s s' : NetworkState) : Prop where
  quiets : Quiets s s'
  people : PeopleKept s s'

namespace Silent

variable {s s' s'' : NetworkState}

theorem refl : Silent s s := ⟨.refl, .refl s⟩

theorem trans (h : Silent s s') (h' : Silent s' s'') : Silent s s'' :=
  ⟨h.quiets.trans h'.quiets, h.people.trans h'.people⟩

theorem edits (h : Silent s s') : Edits s s' := h.quiets.edits

theorem graph (h : Silent s s') (hg : Graph s) : Graph s' := h.quiets.graph hg

theorem of_trims (h : Trims s s') : Silent s s' := ⟨h.quiets, h.people⟩

/-- Fields of a channel. -/
theorem chan {c : Ref} {ch ch' : ChannelState} (hch : s.chanHeap c = some ch)
    (hname : ch'.name = ch.name) (hnicks : ch'.nicks = ch.nicks) (hnet : ch'.network = ch.network)
    (hmodes : KeepsNul ch.modes ch'.modes) : Silent s (s.setChan c ch') :=
  ⟨.single (.chan hch hname hnicks hnet hmodes), .of_eq le_rfl rfl rfl⟩

/-- The modes of a membership. -/
theorem memb {m : Ref} {cn : ChannelNick} {modes : Modes} (hm : s.membHeap m = some cn)
    (hmodes : KeepsNul cn.modes modes) : Silent s (s.setMemb m { cn with modes := modes }) :=
  ⟨.single (.memb hm rfl rfl hmodes), .setMemb hm ⟨rfl, rfl, rfl⟩⟩

/-- The modes of a nick. -/
theorem nick {g : Ref} {n : NetworkNick} {modes : Modes} (hn : s.nickHeap g = some n)
    (hmodes : KeepsNul n.modes modes) : Silent s (s.setNick g { n with modes := modes }) :=
  ⟨.single (.nick hn (.modes n hmodes)), .setNick hn ⟨rfl, rfl, rfl, rfl, rfl, id⟩⟩

theorem addChan (name : Str) :
    Silent s (addChan s { ircChannelStateNew name with network := true }) :=
  ⟨.single (.addChan name), .of_eq (Nat.le_succ _) rfl rfl⟩

theorem away (b : Bool) : Silent s { s with isAway := b } :=
  ⟨.single (.away b), .of_eq le_rfl rfl rfl⟩

end Silent

end Ctrlproxy
