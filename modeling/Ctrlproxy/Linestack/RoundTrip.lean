import Ctrlproxy.Linestack.Restore

/-!
# Linestack — snapshots are read back

`snapshot_restored` puts the two modes of the marshaller together.  `restore_fails_on_twice` is
the state it leaves out: of two memberships of one nick in a channel one comes back.
-/

namespace Ctrlproxy
open Outcome

/-- **Snapshots are read back.** The text of a state that can be written, and that lists no nick
twice in a channel, is read back completely: into a fresh state, whatever memory held before, it
gives the state restored. -/
theorem snapshot_restored {read : LineReader} (hread : ReadsLines read) {s : NetworkState}
    (h : Marshallable s) (honce : MembersOnce s) (junk junk' : Junk) :
    ∃ text s', marshallNetworkState read junk .push [] s = .ok (true, text, s) ∧
      marshallNetworkState read junk' .pull text (networkStateInit [] [] []) = .ok (true, [], s') ∧
      Restored s s' := by
  obtain ⟨s', hpull, hr⟩ : ∃ s', marshallNetworkState read junk' .pull (stateText s ++ [])
      (networkStateInit [] [] []) = .ok (true, [], s') ∧ Restored s s' :=
    marshallNetworkState_pull hread h honce []
  rw [List.append_nil] at hpull
  exact ⟨stateText s, s', marshallNetworkState_push hread h [], hpull, hr⟩

/-! ### Two states -/

/-- Read up to a newline. -/
def readToNewline : LineReader := fun t =>
  (t.takeWhile (· ≠ chr '\n'), (t.dropWhile (· ≠ chr '\n')).take 1)

theorem readToNewline_readsLines : ReadsLines readToNewline := by
  intro x rest hx
  have hne : ∀ b ∈ x, decide (b ≠ chr '\n') = true := fun b hb => decide_eq_true (hx.1 b hb).2
  rw [readToNewline, List.takeWhile_append_of_pos hne, List.dropWhile_append_of_pos hne]
  simp

def namedNick (name : String) (l : List Ref) : NetworkNick :=
  { NetworkNick.zero with nick := some (str name), channelNicks := l }

/-- A channel with two members: the nick at 1, and the nick at `g`. -/
def twoMembers (g : Ref) : NetworkState where
  nickHeap := (Heap.empty.set 0 (namedNick "me" (if g = 0 then [4] else []))).set 1
    (namedNick "bob" (if g = 0 then [3] else [3, 4]))
  chanHeap := Heap.empty.set 2 { ircChannelStateNew (str "#c") with network := true, nicks := [3, 4] }
  membHeap := (Heap.empty.set 3 ⟨modesClear, 1, 2, long0, none⟩).set 4
    ⟨modesClear, g, 2, long0, none⟩
  next := 5
  nicks := [1]
  channels := [2]
  info := networkInfoInit
  isAway := false

theorem modesClear_writable : ModesWritable modesClear := by
  have hnone : mode2string modesClear = none := by decide
  refine ⟨fun i hi => (nomatch hi), ?_⟩
  rw [hnone]
  rintro w ⟨⟩

theorem namedNick_writable {name : String} (l : List Ref) (h : Plain (str name)) :
    NickWritable (namedNick name l) := by
  refine ⟨modesClear_writable, nofun, ?_, ?_, ?_, ?_, ?_, ?_⟩
  · rintro v ⟨⟩
    exact h
  all_goals
    rintro v ⟨⟩

section
variable {g : Ref}

theorem twoMembers_nick (g : Ref) {r : Ref} (hr : Known (twoMembers g) r) :
    r = 0 ∧ (twoMembers g).nickHeap r = some (namedNick "me" (if g = 0 then [4] else [])) ∨
    r = 1 ∧ (twoMembers g).nickHeap r =
      some (namedNick "bob" (if g = 0 then [3] else [3, 4])) := by
  rcases hr with rfl | hr
  · exact .inl ⟨rfl, rfl⟩
  · obtain rfl := List.mem_singleton.mp hr
    exact .inr ⟨rfl, rfl⟩

theorem twoMembers_membership (hg : g = 0 ∨ g = 1) : Membership (twoMembers g) := by
  refine ⟨?_, ?_, ?_, ?_, ⟨_, rfl⟩⟩
  · intro c hc
    obtain rfl := List.mem_singleton.mp hc
    refine ⟨_, rfl, rfl, fun m hm => ?_⟩
    rcases List.mem_cons.mp hm with rfl | hm
    · rcases hg with rfl | rfl <;>
        exact ⟨_, _, rfl, rfl, .inr (List.mem_singleton_self _), rfl, by decide, by decide⟩
    · obtain rfl := List.mem_singleton.mp hm
      rcases hg with rfl | rfl
      · exact ⟨_, _, rfl, rfl, .inl rfl, rfl, by decide, by decide⟩
      · exact ⟨_, _, rfl, rfl, .inr (List.mem_singleton_self _), rfl, by decide, by decide⟩
  · intro r hr
    have hmem : ∀ m ∈ [3, 4], ∃ cn ch, (twoMembers g).membHeap m = some cn ∧
        cn.channel ∈ (twoMembers g).channels ∧ (twoMembers g).chanHeap cn.channel = some ch ∧
        m ∈ ch.nicks := by
      intro m hm
      simp only [List.mem_cons, List.not_mem_nil, or_false] at hm
      rcases hm with rfl | rfl
      · exact ⟨_, _, rfl, List.mem_singleton_self _, rfl, List.mem_cons_self⟩
      · exact ⟨_, _, rfl, List.mem_singleton_self _, rfl, List.mem_cons_of_mem _ List.mem_cons_self⟩
    rcases twoMembers_nick g hr with ⟨-, h⟩ | ⟨-, h⟩
    · refine ⟨_, h, fun m hm => hmem m ?_⟩
      rcases hg with rfl | rfl <;> simp_all [namedNick]
    · refine ⟨_, h, fun m hm => hmem m ?_⟩
      rcases hg with rfl | rfl <;> simp_all [namedNick]
  · intro r hr
    obtain rfl := List.mem_singleton.mp hr
    rfl
  · intro c hc
    obtain rfl := List.mem_singleton.mp hc
    rfl

theorem prefixless : ∀ a ∈ [str "me", str "bob"],
    isPrefix a.head? (some networkInfoInit) = false := by
  decide

theorem me_ne_bob : irccmp (some networkInfoInit) (some (str "me")) (some (str "bob")) ≠ .ok 0 ∧
    irccmp (some networkInfoInit) (some (str "bob")) (some (str "me")) ≠ .ok 0 := by
  decide

theorem twoMembers_marshallable (hg : g = 0 ∨ g = 1) : Marshallable (twoMembers g) where
  membership := twoMembers_membership hg
  info := rfl
  nicks := by
    intro r hr n hn
    rcases twoMembers_nick g hr with ⟨-, h⟩ | ⟨-, h⟩
    all_goals
      rw [h] at hn
      cases hn
      refine ⟨namedNick_writable _ (by decide), ?_⟩
      rintro a ⟨⟩
      exact ⟨by decide, prefixless _ (by simp)⟩
  distinct := by
    intro r r' hr hr' n n' hn hn' he
    rcases twoMembers_nick g hr with ⟨rfl, h⟩ | ⟨rfl, h⟩ <;>
      rcases twoMembers_nick g hr' with ⟨rfl, h'⟩ | ⟨rfl, h'⟩
    · rfl
    · rw [h] at hn
      rw [h'] at hn'
      cases hn
      cases hn'
      exact absurd he me_ne_bob.1
    · rw [h] at hn
      rw [h'] at hn'
      cases hn
      cases hn'
      exact absurd he me_ne_bob.2
    · rfl
  channels := by
    intro c hc ch hch
    obtain rfl := List.mem_singleton.mp hc
    cases hch
    have empty : ([] : List NicklistEntry).length < 10 ^ 7 := by decide
    refine ⟨by decide, modesClear_writable, by decide, ?_, ?_, fun i => ⟨empty, ?_⟩, fun i => ?_⟩
    · rintro v ⟨⟩
    · rintro v ⟨⟩
    · intro e he
      cases he
    · rintro v ⟨⟩
  members := by
    intro c hc ch hch
    obtain rfl := List.mem_singleton.mp hc
    cases hch
    refine ⟨by decide, fun m hm cn hcn => ?_⟩
    simp only [List.mem_cons, List.not_mem_nil, or_false] at hm
    rcases hm with rfl | rfl <;> cases hcn <;> exact modesClear_writable
  nicks_length := (by decide : 1 < 10 ^ 7)
  channels_length := (by decide : 1 < 10 ^ 7)

theorem twoMembers_once : MembersOnce (twoMembers 0) := by
  intro c hc ch hch
  obtain rfl := List.mem_singleton.mp hc
  cases hch
  refine .cons ?_ (.cons nofun .nil)
  intro m hm cn cn' hcn hcn'
  obtain rfl := List.mem_singleton.mp hm
  cases hcn
  cases hcn'
  decide

end

/-- The snapshot of a channel with two members. -/
theorem snapshot_restored_twoMembers :
    ReadsLines readToNewline ∧ Marshallable (twoMembers 0) ∧ MembersOnce (twoMembers 0) ∧
    ∃ text s', marshallNetworkState readToNewline zeroes .push [] (twoMembers 0) =
        .ok (true, text, twoMembers 0) ∧
      marshallNetworkState readToNewline zeroes .pull text (networkStateInit [] [] []) =
        .ok (true, [], s') ∧ Restored (twoMembers 0) s' :=
  ⟨readToNewline_readsLines, twoMembers_marshallable (.inl rfl), twoMembers_once,
    snapshot_restored readToNewline_readsLines (twoMembers_marshallable (.inl rfl)) twoMembers_once
      zeroes zeroes⟩

/-- No two channels have the same name. -/
def ChannelNamesDistinct (s : NetworkState) : Prop :=
  ∀ c ∈ s.channels, ∀ c' ∈ s.channels, ∀ ch ch', s.chanHeap c = some ch →
    s.chanHeap c' = some ch' → irccmp (some s.info) (some ch.name) (some ch'.name) = .ok 0 → c = c'

/-! ### A nick that is listed twice -/

/-- The channel of `twoMembers`, with the members at `l`. -/
def channelOf (l : List Ref) : ChannelState :=
  { ircChannelStateNew (str "#c") with network := true, nicks := l }

/-- What is read of the snapshot of `twoMembers 1`: its nicks … -/
def nicksRead : NetworkState :=
  addNick ((networkStateInit [] [] []).setNick meRef (namedNick "me" [])) (namedNick "bob" [])

/-- … its channel, up to the members … -/
def channelRead : NetworkState := { nicksRead with next := 3 }.setChan 2 (channelOf [])

/-- … and its first member. -/
def memberRead : NetworkState := addMemb channelRead 2 1 (channelOf []) (namedNick "bob" []) modesClear

/-- The first member is added, and the second is taken for it. -/
theorem bob_found : findAddChannelNick channelRead 2 (str "bob") = .ok (3, memberRead) ∧
    findAddChannelNick memberRead 2 (str "bob") = .ok (3, memberRead) :=
  ⟨rfl, rfl⟩

theorem memberRead_memb : memberRead.membHeap 3 = some ⟨modesClear, 1, 2, long0, none⟩ := rfl

theorem memberRead_setMemb :
    memberRead.setMemb 3 ⟨modesClear, 1, 2, long0, none⟩ = memberRead := by
  have hnext : channelRead.next = 3 := rfl
  simp only [memberRead, addMemb, NetworkState.setMemb, hnext, Heap.set_set]

/-- The two members are read into one. -/
theorem members_pull (rest : Str) :
    pullMembers readToNewline 1 2 0 2 channelRead
      (texts (memberText (twoMembers 1) 1) 0 [3, 4] ++ rest) = .ok (true, memberRead, rest) := by
  have hread := readToNewline_readsLines
  have hplain : ∀ v ∈ some (str "bob"), Plain v := by
    rintro v ⟨⟩
    decide
  have nick : Carries (marshallString readToNewline (str "nick") 4) (some (str "bob")) _ :=
    marshallString_carries hread ⟨by decide, hplain⟩
  have modes : Carries (marshallModes readToNewline (str "modes") 4) modesClear _ :=
    marshallModes_carries hread (by decide) modesClear_writable
  have hbob : (twoMembers 1).nickHeap 1 = some (namedNick "bob" [3, 4]) := rfl
  have hname : (namedNick "bob" [3, 4]).nick = some (str "bob") := rfl
  have hthree : (twoMembers 1).membHeap 3 = some ⟨modesClear, 1, 2, long0, none⟩ := rfl
  have hfour : (twoMembers 1).membHeap 4 = some ⟨modesClear, 1, 2, long0, none⟩ := rfl
  simp only [texts, memberText_eq hthree hbob, memberText_eq hfour hbob, hname, List.append_assoc,
    pullMembers, marshallStruct_pull hread (ascii_indexName 10 _), ok_bind, nick.pull,
    Bool.true_eq_false, if_false, Option.getD_some, bob_found,
    NetworkState.memb_eq memberRead_memb, modes.pull, memberRead_setMemb, List.nil_append]

section
variable (rest : Str)

theorem bob_pull : marshallNetworkNickP readToNewline zeroes (indexName 20 0) 1 .pull
    ((networkStateInit [] [] []).setNick meRef (namedNick "me" []))
    (nickTextAt (twoMembers 1) 1 (indexName 20 0) 1 ++ rest) 0 =
    .ok (true, { nicksRead with nicks := [] }, rest, 1) := by
  have hw : NickWritable (namedNick "bob" [3, 4]) := namedNick_writable _ (by decide)
  have hbob : (twoMembers 1).nickHeap 1 = some (namedNick "bob" [3, 4]) := rfl
  rw [nickTextAt_eq hbob]
  simp only [marshallNetworkNickP, ok_bind,
    (marshallNetworkNick_carries readToNewline_readsLines (ascii_indexName 20 0) hw).2]
  rfl

theorem channel_pull : marshallChannelState readToNewline zeroes (indexName 20 0) 1 .pull nicksRead
    (channelText (twoMembers 1) 1 (indexName 20 0) 2 ++ rest) 0 =
    .ok (true, memberRead, rest, 2) := by
  have h := twoMembers_marshallable (.inr rfl : (1 : Ref) = 0 ∨ (1 : Ref) = 1)
  have hch : (twoMembers 1).chanHeap 2 = some (channelOf [3, 4]) := rfl
  have start : { nicksRead with next := nicksRead.next + 1 }.setChan nicksRead.next
      { readChannel (channelOf [3, 4]) (zeroes.chan nicksRead.next) with nicks := [] } =
      channelRead := rfl
  have hnext : nicksRead.next = 2 := rfl
  have members : pullMembers readToNewline 1 nicksRead.next 0 (channelOf [3, 4]).nicks.length
      ({ nicksRead with next := nicksRead.next + 1 }.setChan nicksRead.next
        { readChannel (channelOf [3, 4]) (zeroes.chan nicksRead.next) with nicks := [] })
      (texts (memberText (twoMembers 1) 1) 0 (channelOf [3, 4]).nicks ++ rest) =
      .ok (true, memberRead, rest) := by
    rw [start]
    exact members_pull rest
  rw [marshallChannelState_members readToNewline_readsLines h (List.mem_singleton_self 2) hch
    (ascii_indexName 20 0) members, hnext]

end

/-- Of the two members of `twoMembers 1` one comes back. -/
theorem twoMembers_pull : marshallNetworkState readToNewline zeroes .pull (stateText (twoMembers 1))
    (networkStateInit [] [] []) = .ok (true, [], { memberRead with channels := [2] }) := by
  have hread := readToNewline_readsLines
  have h := twoMembers_marshallable (.inr rfl : (1 : Ref) = 0 ∨ (1 : Ref) = 1)
  have hme : (twoMembers 1).nickHeap meRef = some (namedNick "me" []) := rfl
  obtain ⟨me₀, fresh, hops⟩ : ∃ me₀, (networkStateInit [] [] []).nick meRef = .ok me₀ ∧
      me₀.hops = 0 := ⟨_, rfl, rfl⟩
  have me_read : { namedNick "me" [] with hops := me₀.hops, channelNicks := [] } =
      namedNick "me" [] := by
    rw [hops]
    rfl
  have hnicks : (twoMembers 1).nicks = [1] := rfl
  have hchannels : (twoMembers 1).channels = [2] := rfl
  have nicks : ∀ rest, marshallGList readToNewline 0 (marshallNetworkNickP readToNewline zeroes)
      (str "nicks") 0 .pull ((networkStateInit [] [] []).setNick meRef
        { namedNick "me" [] with hops := me₀.hops, channelNicks := [] })
      (listText (fun i => nickTextAt (twoMembers 1) 1 (indexName 20 i)) 0 (str "nicks")
        (twoMembers 1).nicks ++ rest) [] =
      .ok (true, { nicksRead with nicks := [] }, rest, [1]) := by
    rw [me_read, hnicks]
    exact marshallGList_pull_one hread (by decide) bob_pull
  have start : { ({ nicksRead with nicks := [] } : NetworkState) with nicks := [1] } = nicksRead := rfl
  have channels : ∀ rest, marshallGList readToNewline 0 (marshallChannelState readToNewline zeroes)
      (str "channels") 0 .pull { ({ nicksRead with nicks := [] } : NetworkState) with nicks := [1] }
      (listText (fun i => channelText (twoMembers 1) 1 (indexName 20 i)) 0 (str "channels")
        (twoMembers 1).channels ++ rest) ({ nicksRead with nicks := [] } : NetworkState).channels =
      .ok (true, memberRead, rest, [2]) := by
    rw [start, hchannels]
    exact marshallGList_pull_one hread (by decide) channel_pull
  have hlive : ∃ n, memberRead.nickHeap meRef = some n ∧ n.nick ≠ none := ⟨_, rfl, nofun⟩
  obtain ⟨n, hn, hnamed⟩ := hlive
  have hpull := marshallNetworkState_lists hread h hme fresh (nicks _) (channels []) hn hnamed
  rw [List.append_nil] at hpull
  exact hpull

/-- A consistent state whose channel lists a nick twice is not read back: the second membership
is taken for the first. -/
theorem restore_fails_on_twice :
    ¬∀ (read : LineReader) (junk : Junk) (s : NetworkState), ReadsLines read → Marshallable s →
      ChannelNamesDistinct s → ∃ text s',
        marshallNetworkState read junk .push [] s = .ok (true, text, s) ∧
        marshallNetworkState read junk .pull text (networkStateInit [] [] []) =
          .ok (true, [], s') ∧ Restored s s' := by
  intro h
  have hm := twoMembers_marshallable (.inr rfl : (1 : Ref) = 0 ∨ (1 : Ref) = 1)
  have hnames : ChannelNamesDistinct (twoMembers 1) := by
    intro c hc c' hc' _ _ _ _ _
    rw [List.mem_singleton.mp hc, List.mem_singleton.mp hc']
  obtain ⟨text, s', hpush, hpull, hr⟩ := h readToNewline zeroes _ readToNewline_readsLines hm hnames
  rw [marshallNetworkState_push readToNewline_readsLines hm, List.nil_append] at hpush
  cases hpush
  rw [twoMembers_pull] at hpull
  cases hpull
  have hc := hr.channels
  obtain ⟨ch, ch', hch, hch', -, hmem⟩ := (List.forall₂_cons.mp hc).1.fields
  cases hch
  cases hch'
  exact absurd hmem.length_eq (by decide)

end Ctrlproxy
