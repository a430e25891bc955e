import Ctrlproxy.State.Frame
import Ctrlproxy.State.Lookup

/-!
# State — what 352 lines said of the members

A 352 line tells of a member of a channel: the user name, the host, the server, the number of hops
and the real name, and flags for the channel.  The flags are kept with the membership and the rest
with the nick, which is one for all channels; JOIN and 302 lines write the user name and the host of
the nick too, and a real name that is known is not replaced.

`WhoView` is what the last 352 line said of each member.  The state holds it (`HoldsReplies`) as long
as no line says anything else of the nick of a member that a 352 line told of (`WhoLine`).
-/

namespace Ctrlproxy
open Outcome

/-! ### What the server said -/

/-- What a 352 line says of a member. -/
structure WhoReply where
  username : Str
  hostname : Str
  server : Str
  flags : Str
  hops : ℤ
  realname : Str
  deriving DecidableEq

/-- The number in front of a text, and what is behind it. -/
def numberInFront (w : Str) : ℤ × Str :=
  let (neg, t) := strtolSign (w.dropWhile Byte.isSpace)
  if startsDigit 10 t then
    let (v, rest) := digitsVal 10 0 t
    (if neg then -(v : ℤ) else v, rest)
  else (0, w)

/-- The real name behind the number of hops: one space stands in between. -/
def realnameIn (rest : Str) : Str := if rest.head? = some (chr ' ') then rest.tail else rest

/-- What a 352 line says: `352 <target> <channel> <user> <host> <server> <nick> <flags> :<hops>
<real name>`. -/
def whoReply (l : IrcLine) : Option WhoReply :=
  match l.args with
  | _ :: _ :: _ :: username :: hostname :: server :: _ :: flags :: info :: _ =>
      let (hops, rest) := numberInFront info
      some ⟨username, hostname, server, flags, hops, realnameIn rest⟩
  | _ => none

/-- The last reply for each member. -/
abbrev WhoView := Ref → Option WhoReply

/-- The member that a 352 line is about: who has the nick on the channel. -/
def repliedMember (s : NetworkState) (l : IrcLine) : Option Ref :=
  match findChannel s (l.args[2]?.getD []) with
  | .ok (some c) => match findChannelNick s c (l.args[6]?.getD []) with
      | .ok m => m
      | .error _ => none
  | _ => none

/-- The replies after a line. -/
def whoStep (s : NetworkState) (g : WhoView) (l : IrcLine) : WhoView :=
  if commandOf l = some .whoreply then match repliedMember s l with
    | some m => Function.update g m (whoReply l)
    | none => g
  else g

/-- The state and the replies after a line. -/
def whoRunStep (x : NetworkState × WhoView) (i : Input) : Except Fault (NetworkState × WhoView) := do
  let s ← stateStep x.1 i
  pure (s, whoStep x.1 x.2 i.2)

/-! ### What the state holds -/

/-- A nick and its membership say what the reply said. -/
structure WhoReply.HeldBy (x : WhoReply) (cn : ChannelNick) (n : NetworkNick) : Prop where
  username : n.username = some x.username
  hostname : n.hostname = some x.hostname
  server : n.server = some x.server
  flags : cn.lastFlags = some x.flags
  hops : n.hops = x.hops
  realname : n.fullname = some x.realname
  named : n.nick ≠ none

/-- A membership holds the last reply, or it tells that there was none. -/
def HeldReply (o : Option WhoReply) (cn : ChannelNick) (n : NetworkNick) : Prop :=
  match o with
  | some x => x.HeldBy cn n
  | none => cn.lastUpdate = long0

/-- The state holds the last replies for its members. -/
structure HoldsReplies (g : WhoView) (s : NetworkState) : Prop where
  unborn : ∀ m, s.next ≤ m → g m = none
  born : ∀ m cn, s.membHeap m = some cn → cn.globalNick < s.next
  held : ∀ m cn n, s.membHeap m = some cn → s.nickHeap cn.globalNick = some n → HeldReply (g m) cn n

/-! ### Lines that agree with the replies -/

/-- The hostmask has the user name and the host that the replies for the nick had, or the nick has
this hostmask already. -/
def IdentityAgrees (g : WhoView) (s : NetworkState) (k : Ref) (hm : Str) : Prop :=
  ∀ m cn n x, s.membHeap m = some cn → cn.globalNick = k → s.nickHeap k = some n → g m = some x →
    n.hostmask = some hm ∨ (splitHostmask hm).2 = (some x.username, some x.hostname)

/-- The nick that joins a channel: that of the member with this name, if there is one. -/
def joiningNick (s : NetworkState) (nick name : Str) : Option Ref :=
  let realname := stripPrefix (some s.info) nick
  let listed : Option Ref := match findChannel s name with
    | .ok (some c) => match findChannelNick s c realname with
        | .ok m => m
        | .error _ => none
    | _ => none
  match listed with
  | some m => (s.membHeap m).map (·.globalNick)
  | none => match findNetworkNick s realname with
      | .ok k => k
      | .error _ => none

/-- One channel of a JOIN line says nothing new of the nick. -/
def JoinAgrees (g : WhoView) (origin nick : Str) (s : NetworkState) (name : Str) : Prop :=
  ∀ k, joiningNick s nick name = some k → IdentityAgrees g s k origin

/-- One user of a 302 line says nothing new of the nick. -/
def UserhostAgrees (g : WhoView) (s : NetworkState) (user : Str) : Prop :=
  ∀ nick b uh rest k, gStrsplitN user (chr '=') 2 = nick :: (b :: uh) :: rest →
    findNetworkNick s nick = .ok (some k) → IdentityAgrees g s k (nick ++ chr '!' :: uh)

/-- A 352 line says nothing new of the nick but what is kept with the member, the number of hops is
an `int`, and a real name that is known is repeated. -/
structure ReplyAgrees (g : WhoView) (s : NetworkState) (l : IrcLine) (x : WhoReply) : Prop where
  hops : -2 ^ 31 ≤ x.hops ∧ x.hops < 2 ^ 31
  others : ∀ m cn y, s.membHeap m = some cn → g m = some y → repliedMember s l ≠ some m →
    findNetworkNick s (l.args[6]?.getD []) = .ok (some cn.globalNick) →
    y.username = x.username ∧ y.hostname = x.hostname ∧ y.server = x.server ∧ y.hops = x.hops
  member : ∀ m, repliedMember s l = some m → ∃ cn n, s.membHeap m = some cn ∧
    findNetworkNick s (l.args[6]?.getD []) = .ok (some cn.globalNick) ∧
    s.nickHeap cn.globalNick = some n ∧ (n.fullname = none ∨ n.fullname = some x.realname)

/-- A line that says nothing new of a nick that a 352 line told of, but by a 352 line for its only
member. -/
structure WhoLine (x : NetworkState × WhoView) (l : IrcLine) : Prop where
  join : commandOf l = some .join → ∀ o channels, l.origin = some o → l.args[1]? = some channels →
    Along (joinChannel o (o.takeWhile (· ≠ chr '!')))
      (JoinAgrees x.2 o (o.takeWhile (· ≠ chr '!'))) x.1 (gStrsplit channels (chr ','))
  userhost : commandOf l = some .c302 → ∀ users, l.args[2]? = some users →
    Along userhost (UserhostAgrees x.2) x.1 (gStrsplit (gStrstrip users) (chr ' '))
  reply : commandOf l = some .whoreply → ∀ y, whoReply l = some y → ReplyAgrees x.2 x.1 l y

/-! ### Lines that say nothing of a user -/

section
variable {s s' : NetworkState} {l : IrcLine} {c : Ref} {name : Str}

theorem findAddNetworkNick_people (name : Str) :
    Ensures (findAddNetworkNick s name) (fun r => PeopleKept s r.2) fun _ => True := by
  refine (findNetworkNick_ensures open_faults name).bind fun r _ => ?_
  cases r with
  | some k => exact .refl s
  | none =>
      dsimp only
      split
      · trivial
      · exact .addNick _

theorem addChannelNick_people (h : Graph s) (realname : Str) (p : Option Byte) :
    Ensures (addChannelNick s c realname p) (fun r => PeopleKept s r.2) fun _ => True := by
  have nick := (findAddNetworkNick_edits (E := fun _ => True) open_faults realname).and
    (findAddNetworkNick_people (s := s) realname)
  refine (nick.mono (fun _ h => h) fun _ _ => trivial).bind ?_
  rintro ⟨g, s₁⟩ ⟨⟨e₁, hk, -⟩, hp⟩
  refine Ensures.bind (Q := fun _ => True) (by cases prefixModes s₁.info p <;> trivial) fun modes _ => ?_
  refine (NetworkState.chan_ensures open_faults c).bind fun ch _ => ?_
  refine (NetworkState.nick_ensures open_faults g).bind fun gn hgn => ?_
  exact hp.trans (.addMemb hgn ((e₁.graph h).known_lt hk) modes)

theorem findAddChannelNick_people (h : Graph s) (name : Str) :
    Ensures (findAddChannelNick s c name) (fun r => PeopleKept s r.2) fun _ => True := by
  unfold findAddChannelNick
  split
  · trivial
  refine (NetworkState.chan_ensures open_faults c).bind fun ch _ => ?_
  split
  · trivial
  refine (findChannelNick_ensures open_faults c _).bind fun r _ => ?_
  cases r with
  | some m => exact .refl s
  | none => exact addChannelNick_people h _ _

theorem handleNamreply_people (h : Graph s) :
    Ensures (handleNamreply s l) (PeopleKept s) fun _ => True := by
  refine (IrcLine.argStr_ensures open_faults 3).bind fun chan _ => ?_
  refine (findChannel_ensures open_faults chan).bind fun r hr => ?_
  cases r with
  | none => exact .refl s
  | some c =>
      refine (IrcLine.argStr_ensures open_faults 4).bind fun names _ => ?_
      refine (IrcLine.argStr_ensures open_faults 2).bind fun mode _ => ?_
      have hmode : KeepsChannel fun ch => { ch with mode := mode.head? } :=
        ⟨fun _ => rfl, fun _ => rfl, fun _ => rfl, fun _ => KeepsNul.refl _⟩
      refine (modifyChan_silent open_faults c hmode).bind ?_
      rintro s₁ ⟨e₁, hcs₁⟩
      refine (restartNames_silent open_faults (e₁.graph h) (hcs₁ ▸ hr c rfl)).bind ?_
      rintro s₂ ⟨e₂, hcs₂⟩
      have e := e₁.trans e₂
      have hc : c ∈ s₂.channels := hcs₂ ▸ hcs₁ ▸ hr c rfl
      have loop := Ensures.foldlM (f := addName c) (l := gStrsplit names (chr ' ')) (b := s₂)
        (I := fun s' => (Edits s s' ∧ s'.channels = s₂.channels) ∧ PeopleKept s s')
        (E := fun _ => True) ?_ ⟨⟨e.edits, rfl⟩, e.people⟩
      · exact loop.imp fun _ => And.right
      rintro s' name - ⟨⟨he, hcs⟩, hp⟩
      unfold addName
      split
      · exact ⟨⟨he, hcs⟩, hp⟩
      have hg := he.graph h
      have add := (findAddChannelNick_edits open_faults hg (hcs ▸ hc) fun _ => trivial).and
        (findAddChannelNick_people (c := c) hg name)
      refine (add.mono (fun _ h => h) fun _ _ => trivial).bind ?_
      rintro ⟨m, s''⟩ ⟨⟨he', hcs', -⟩, hp'⟩
      exact ⟨⟨he.trans he', hcs'.trans hcs⟩, hp.trans hp'⟩

theorem handleNick_people : Ensures (handleNick s l) (PeopleKept s) fun _ => True := by
  unfold handleNick
  split
  · exact .refl s
  refine (lineGetNick_ensures open_faults).bind fun nick _ => ?_
  refine (findAddNetworkNick_people nick).bind ?_
  rintro ⟨k, s₁⟩ hp
  refine (IrcLine.argStr_ensures open_faults 1).bind fun new _ => ?_
  refine (NetworkState.modifyNick_ensures open_faults _ _).imp ?_
  rintro _ ⟨n, hn, rfl⟩
  refine hp.trans (.setNick hn ?_)
  unfold networkNickSetNick
  split
  · exact .refl n
  · exact ⟨rfl, rfl, rfl, rfl, rfl, fun _ => nofun⟩

theorem handlePrivmsg_people : Ensures (handlePrivmsg s l) (PeopleKept s) fun _ => True := by
  unfold handlePrivmsg
  split
  · exact .refl s
  refine (IrcLine.argStr_ensures open_faults 1).bind fun target _ => ?_
  refine (NetworkState.nick_ensures open_faults _).bind fun me _ => ?_
  refine (ircEq_ensures open_faults _ _ _).bind fun b _ => ?_
  split
  · refine (lineGetNick_ensures open_faults).bind fun nick _ => ?_
    refine (findAddNetworkNick_people nick).bind ?_
    rintro ⟨k, s₁⟩ hp
    refine (NetworkState.modifyNick_ensures open_faults _ _).imp ?_
    rintro _ ⟨n, hn, rfl⟩
    exact hp.trans (.setNick hn ⟨rfl, rfl, rfl, rfl, rfl, id⟩)
  · exact .refl s

theorem handleMode_people (now : Long) : Ensures (handleMode now s l) (PeopleKept s) fun _ => True := by
  refine (IrcLine.argStr_ensures open_faults 1).bind fun target _ => ?_
  refine (IrcLine.argStr_ensures open_faults 2).bind fun change _ => ?_
  refine (isChannelname_ensures open_faults target s.info).bind fun b _ => ?_
  split
  · refine (findChannel_ensures open_faults target).bind fun r _ => ?_
    cases r with
    | none => exact .refl s
    | some c =>
        refine (lineGetNick_ensures open_faults).bind fun byName _ => ?_
        refine (findNetworkNick_ensures open_faults byName).bind fun by' _ => ?_
        exact (channelModeLoop_silent open_faults (fun _ _ => trivial) now by' c true 3).imp
          fun _ => Silent.people
  · refine (findAddNetworkNick_people target).bind ?_
    rintro ⟨k, s₁⟩ hp
    refine (NetworkState.nick_ensures open_faults k).bind fun n hn => ?_
    refine Ensures.bind (Q := fun _ => True) (by cases changeModes true n.modes change <;> trivial)
      fun modes _ => ?_
    exact hp.trans (.setNick hn ⟨rfl, rfl, rfl, rfl, rfl, id⟩)

theorem handle001_people (hk : commandOf l = some .c001) :
    Ensures (handle001 s l) (PeopleKept s) fun _ => True := by
  have hlt : 1 < l.argc := commandOf_argc hk
  obtain ⟨x, hx⟩ : ∃ x, l.args[1]? = some x := ⟨_, List.getElem?_eq_getElem hlt⟩
  unfold handle001 IrcLine.arg
  rw [if_pos hlt.le, hx]
  refine (NetworkState.modifyNick_ensures open_faults _ _).imp ?_
  rintro _ ⟨n, hn, rfl⟩
  exact .setNick hn ⟨rfl, rfl, rfl, rfl, rfl, fun _ => nofun⟩

/-- Only JOIN, 302 and 352 lines say anything of a user. -/
theorem handler_people (h : Graph s) {k : Command} (hk : commandOf l = some k) (hjoin : k ≠ .join)
    (h302 : k ≠ .c302) (hwho : k ≠ .whoreply) (now : Long) :
    Ensures (k.handler now s l) (PeopleKept s) fun _ => True := by
  cases hq : k.isQuiet with
  | true => exact (handler_silent h hk hq now).mono (fun _ => Silent.people) fun _ _ => trivial
  | false =>
      cases k with
      | join => exact absurd rfl hjoin
      | c302 => exact absurd rfl h302
      | whoreply => exact absurd rfl hwho
      | nick => exact handleNick_people
      | privmsg => exact handlePrivmsg_people
      | mode => exact handleMode_people now
      | c001 => exact handle001_people hk
      | c004 =>
          refine (handle004_info open_faults).imp ?_
          rintro _ ⟨i, rfl⟩
          exact .of_eq le_rfl rfl rfl
      | c005 =>
          refine (handle005_info open_faults).imp ?_
          rintro _ ⟨i, rfl⟩
          exact .of_eq le_rfl rfl rfl
      | namreply => exact handleNamreply_people h
      | _ => cases hq

end

/-! ### What a nick says -/

section
variable {s s' : NetworkState} {g : WhoView} {l : IrcLine} {c k m : Ref} {n n' : NetworkNick}
  {cn cn' : ChannelNick} {x : WhoReply} {hm name nick : Str}

theorem WhoReply.HeldBy.same (h : x.HeldBy cn n) (hcn : SameReply cn cn') (hn : SaysSame n n') :
    x.HeldBy cn' n' where
  username := hn.username.trans h.username
  hostname := hn.hostname.trans h.hostname
  server := hn.server.trans h.server
  flags := hcn.lastFlags.trans h.flags
  hops := hn.hops.trans h.hops
  realname := hn.fullname.trans h.realname
  named := hn.named h.named

/-- Where nothing new is said, the replies are still held. -/
theorem HoldsReplies.kept (h : HoldsReplies g s) (e : PeopleKept s s') : HoldsReplies g s' where
  unborn := fun m hm => h.unborn m (e.next.trans hm)
  born := by
    intro m cn' hm
    rcases e.memb m cn' hm with ⟨cn, hcn, same⟩ | ⟨-, -, hlt⟩
    · exact same.globalNick ▸ (h.born m cn hcn).trans_le e.next
    · exact hlt
  held := by
    intro m cn' n' hm hn
    rcases e.memb m cn' hm with ⟨cn, hcn, same⟩ | ⟨hle, h0, -⟩
    · rw [same.globalNick] at hn
      rcases e.nick _ n' hn with ⟨n, hn, hsays⟩ | hle
      · have hheld := h.held m cn n hcn hn
        cases hx : g m with
        | none =>
            rw [hx] at hheld
            exact same.lastUpdate.trans hheld
        | some x =>
            rw [hx] at hheld
            exact hheld.same same hsays
      · exact absurd (h.born m cn hcn) (not_lt.mpr hle)
    · rw [h.unborn m hle]
      exact h0

/-- A hostmask with a user name has a nick. -/
theorem splitHostmask_named (h : (splitHostmask hm).2.1 ≠ none) : (splitHostmask hm).1 ≠ none := by
  unfold splitHostmask at h ⊢
  split
  · next heq =>
    rw [heq] at h
    exact absurd rfl h
  · dsimp only
    split <;> exact nofun

/-- A hostmask that agrees with the replies for a nick. -/
theorem HoldsReplies.identity (h : HoldsReplies g s) (hn : s.nickHeap k = some n)
    (hid : IdentityAgrees g s k hm) : HoldsReplies g (s.setNick k (networkNickSetHostmask n hm)) where
  unborn := h.unborn
  born := h.born
  held := by
    intro m cn n' hcn hn'
    rw [NetworkState.setNick_nickHeap, Heap.set_apply] at hn'
    split at hn'
    · next hk =>
      cases hn'
      have hheld := h.held m cn n hcn (hk ▸ hn)
      cases hx : g m with
      | none =>
          rw [hx] at hheld
          exact hheld
      | some x =>
          rw [hx] at hheld
          unfold networkNickSetHostmask
          split
          · exact hheld
          · next hne =>
            have hsplit := (hid m cn n x hcn hk hn hx).resolve_left hne
            exact ⟨congrArg Prod.fst hsplit, congrArg Prod.snd hsplit, hheld.server, hheld.flags,
              hheld.hops, hheld.realname, splitHostmask_named (by rw [hsplit]; nofun)⟩
    · exact h.held m cn n' hcn hn'

/-! ### JOIN and 302 lines -/

theorem findNetworkNick_people_eq (hnick : s'.nickHeap = s.nickHeap) (hnicks : s'.nicks = s.nicks)
    (hinfo : s'.info = s.info) : findNetworkNick s' name = findNetworkNick s name := by
  unfold findNetworkNick NetworkState.nick
  rw [hnick, hnicks, hinfo]

/-- The nick of a user in a 302 line, and what is said of it. -/
theorem userhost_replies {user : Str} (h : HoldsReplies g s) (hagree : UserhostAgrees g s user) :
    Ensures (userhost s user) (HoldsReplies g) fun _ => True := by
  unfold userhost
  split
  · next nick rest us hsplit =>
    cases hf : findNetworkNick s nick with
    | error e =>
        rw [findAddNetworkNick, hf]
        trivial
    | ok o =>
        rw [findAddNetworkNick, hf, ok_bind]
        cases o with
        | some k =>
            dsimp only
            cases rest with
            | nil => trivial
            | cons b uh =>
                refine (NetworkState.modifyNick_ensures open_faults _ _).imp ?_
                rintro _ ⟨n, hn, rfl⟩
                exact h.identity hn (hagree nick b uh us k hsplit hf)
        | none =>
            dsimp only
            split
            · trivial
            cases rest with
            | nil => trivial
            | cons b uh =>
                have h' := h.kept (.addNick (newNetworkNick nick))
                refine (NetworkState.modifyNick_ensures open_faults _ _).imp ?_
                rintro _ ⟨n, hn, rfl⟩
                refine h'.identity hn fun m cn _ x hcn hk _ _ => ?_
                exact absurd hk (h.born m cn hcn).ne
  · exact h

/-- The nick at `k` in `s'` is that at `k` in `s`, with its hostmask, or it is new. -/
def SameHostmask (s s' : NetworkState) (k : Ref) : Prop :=
  (∀ n', s'.nickHeap k = some n' → ∃ n, s.nickHeap k = some n ∧ n.hostmask = n'.hostmask) ∨
    s.next ≤ k

/-- A nick that joins, and the membership it gets, are those of the line. -/
structure Joins (s : NetworkState) (nick name : Str) (r : Ref × NetworkState) : Prop where
  people : PeopleKept s r.2
  nick : ∀ cn, r.2.membHeap r.1 = some cn →
    (joiningNick s nick name = some cn.globalNick ∨ s.next ≤ cn.globalNick) ∧
      SameHostmask s r.2 cn.globalNick

/-- The membership of a nick that is on the channel already. -/
theorem Joins.listed (hc : findChannel s name = .ok (some c))
    (hm : findChannelNick s c (stripPrefix (some s.info) nick) = .ok (some m)) :
    Joins s nick name (m, s) where
  people := .refl s
  nick := by
    intro cn hcn
    refine ⟨.inl ?_, .inl fun n hn => ⟨n, hn, rfl⟩⟩
    rw [joiningNick, hc]
    dsimp only
    rw [hm]
    exact congrArg (Option.map (·.globalNick)) hcn

/-- A new membership, in a state `s'` that has at most a channel more. -/
theorem addChannelNick_joins (hg : Graph s') (hnext : s.next ≤ s'.next)
    (hnick : s'.nickHeap = s.nickHeap) (hnicks : s'.nicks = s.nicks) (hmemb : s'.membHeap = s.membHeap)
    (hinfo : s'.info = s.info)
    (hjoin : joiningNick s nick name = (findNetworkNick s (stripPrefix (some s.info) nick)).toOption.join)
    (p : Option Byte) :
    Ensures (addChannelNick s' c (stripPrefix (some s'.info) nick) p) (Joins s nick name)
      fun _ => True := by
  have people : PeopleKept s s' := .of_eq hnext hnick hmemb
  have kept := addChannelNick_people (c := c) hg (stripPrefix (some s'.info) nick) p
  cases hr : addChannelNick s' c (stripPrefix (some s'.info) nick) p with
  | error e => trivial
  | ok r =>
      refine ⟨people.trans (kept.of_ok hr), ?_⟩
      rw [addChannelNick] at hr
      obtain ⟨⟨k, s₁⟩, hadd, hr⟩ := bind_eq_ok hr
      obtain ⟨modes, -, hr⟩ := bind_eq_ok hr
      obtain ⟨ch, -, hr⟩ := bind_eq_ok hr
      obtain ⟨gn, hgn, hr⟩ := bind_eq_ok hr
      cases hr
      intro cn hcn
      change s₁.membHeap.set s₁.next _ s₁.next = some cn at hcn
      rw [Heap.set_same] at hcn
      cases hcn
      have hostmask : ∀ n', (addMemb s₁ c k ch gn modes).nickHeap k = some n' →
          n'.hostmask = gn.hostmask := by
        intro n' hn'
        change s₁.nickHeap.set k _ k = some n' at hn'
        rw [Heap.set_same] at hn'
        cases hn'
        rfl
      rw [findAddNetworkNick] at hadd
      obtain ⟨o, ho, hadd⟩ := bind_eq_ok hadd
      cases o with
      | some k' =>
          cases hadd
          rw [findNetworkNick_people_eq hnick hnicks hinfo, hinfo] at ho
          refine ⟨.inl (hjoin.trans (by rw [ho]; rfl)), .inl fun n' hn' => ⟨gn, ?_, (hostmask n' hn').symm⟩⟩
          rw [← hnick]
          exact NetworkState.nick_inv hgn
      | none =>
          dsimp only at hadd
          split at hadd
          · cases hadd
          · cases hadd
            exact ⟨.inr hnext, .inr hnext⟩

/-- The membership on a channel that is there. -/
theorem findAddChannelNick_joins (hg : Graph s) (hf : findChannel s name = .ok (some c)) :
    Ensures (findAddChannelNick s c nick) (Joins s nick name) fun _ => True := by
  unfold findAddChannelNick
  split
  · trivial
  refine (NetworkState.chan_ensures open_faults c).bind fun ch _ => ?_
  split
  · trivial
  dsimp only
  cases hm : findChannelNick s c (stripPrefix (some s.info) nick) with
  | error e => trivial
  | ok o =>
      cases o with
      | some m => exact .listed hf hm
      | none =>
          refine addChannelNick_joins hg le_rfl rfl rfl rfl rfl ?_ _
          rw [joiningNick, hf]
          dsimp only
          rw [hm]
          cases findNetworkNick s (stripPrefix (some s.info) nick) with
          | error e => rfl
          | ok o => cases o <;> rfl

/-- The membership on a channel that was created for it. -/
theorem addChan_joins {ch : ChannelState} (hg : Graph (addChan s ch)) (hnicks : ch.nicks = [])
    (hf : findChannel s name = .ok none) :
    Ensures (findAddChannelNick (addChan s ch) s.next nick) (Joins s nick name) fun _ => True := by
  have hch : (addChan s ch).chan s.next = .ok ch := NetworkState.chan_eq (Heap.set_same _ _ _)
  unfold findAddChannelNick
  split
  · trivial
  rw [hch, ok_bind]
  split
  · trivial
  dsimp only
  have nobody : findChannelNick (addChan s ch) s.next
      (stripPrefix (some (addChan s ch).info) nick) = .ok none := by
    rw [findChannelNick, hch, ok_bind, hnicks]
    rfl
  rw [nobody]
  refine addChannelNick_joins hg (Nat.le_succ _) rfl rfl rfl rfl ?_ _
  rw [joiningNick, hf]
  dsimp only
  cases findNetworkNick s (stripPrefix (some s.info) nick) with
  | error e => rfl
  | ok o => cases o <;> rfl

/-- The search of a JOIN line for a nick and its membership. -/
theorem findAdd_joins (hg : Graph s) (nick name : Str) : Ensures (do
    let (c, s) ← findAddChannel s name
    findAddChannelNick s c nick) (Joins s nick name) fun _ => True := by
  unfold findAddChannel
  cases hf : findChannel s name with
  | error e => trivial
  | ok o =>
      cases o with
      | some c => exact findAddChannelNick_joins hg hf
      | none => exact addChan_joins ((Silent.addChan name).graph hg) rfl hf

theorem joinChannel_replies {origin : Str} (hg : Graph s) (h : HoldsReplies g s)
    (hagree : JoinAgrees g origin nick s name) :
    Ensures (joinChannel origin nick s name) (HoldsReplies g) fun _ => True := by
  have search : joinChannel origin nick s name = ((do
      let (c, s) ← findAddChannel s name
      findAddChannelNick s c nick) >>= fun r => do
        let cn ← r.2.memb r.1
        let s ← r.2.modifyNick cn.globalNick fun n => networkNickSetHostmask n origin
        let me ← s.nick meRef
        let _ ← irccmp (some s.info) (some nick) me.nick
        pure s) := by
    unfold joinChannel
    cases findAddChannel s name <;> rfl
  rw [search]
  refine (findAdd_joins hg nick name).bind ?_
  rintro ⟨m, s₂⟩ ⟨hpeople, hnick⟩
  refine (NetworkState.memb_ensures open_faults m).bind fun cn hcn => ?_
  obtain ⟨hjoin, hsame⟩ := hnick cn hcn
  refine (NetworkState.modifyNick_ensures open_faults _ _).bind ?_
  rintro _ ⟨n, hn, rfl⟩
  refine (NetworkState.nick_ensures open_faults _).bind fun me _ => ?_
  refine (irccmp_ensures open_faults _ _ _).bind fun _ _ => ?_
  refine (h.kept hpeople).identity hn fun m' cn' n' x hcn' hk hn' hx => ?_
  rcases hpeople.memb m' cn' hcn' with ⟨cn₀, hcn₀, same⟩ | ⟨hle, -, -⟩
  · have hlt : cn.globalNick < s.next := by
      rw [← hk, same.globalNick]
      exact h.born m' cn₀ hcn₀
    obtain ⟨n₀, hn₀, hhm⟩ := (hsame.resolve_right (not_le.mpr hlt)) n' hn'
    rw [← hhm]
    exact hagree _ (hjoin.resolve_right (not_le.mpr hlt)) m' cn₀ n₀ x hcn₀
      (same.globalNick.symm.trans hk) hn₀ hx
  · rw [h.unborn m' hle] at hx
    cases hx

end

/-! ### 352 lines -/

section
variable {s s' : NetworkState} {g : WhoView} {l : IrcLine} {c k m : Ref} {n n' : NetworkNick}
  {cn : ChannelNick} {x y : WhoReply} {name nick : Str}

theorem strtol_numberInFront (w : Str) :
    strtol w 10 = (clampLong (numberInFront w).1, (numberInFront w).2) := by
  have base : ∀ t : Str, strtolBase 10 t = (10, t) := fun _ => rfl
  unfold strtol numberInFront
  dsimp only
  rw [base]
  dsimp only
  split
  · rfl
  · rfl

theorem toInt_clampLong {v : ℤ} (hlo : -2 ^ 31 ≤ v) (hhi : v < 2 ^ 31) : toInt (clampLong v) = v := by
  have hclamp : (clampLong v).1 = v := by
    unfold clampLong
    rw [dif_neg (by omega), dif_neg (by omega)]
  rw [toInt, hclamp]
  exact Int.bmod_eq_of_le (by omega) (by omega)

/-- What a 352 line makes of a nick. -/
structure RepliedNick (x : WhoReply) (n n' : NetworkNick) : Prop where
  username : n'.username = some x.username
  hostname : n'.hostname = some x.hostname
  server : n'.server = some x.server
  hops : n'.hops = x.hops
  realname : n'.fullname = some (n.fullname.getD x.realname)
  named : n'.nick ≠ none

/-- The nick after `handle_whoreply`. -/
theorem repliedNick_of (n : NetworkNick) (nick : Str) {info : Str}
    (hx : x.hops = (numberInFront info).1 ∧ x.realname = realnameIn (numberInFront info).2)
    (hfits : -2 ^ 31 ≤ x.hops ∧ x.hops < 2 ^ 31) :
    RepliedNick x n (whoreplyNick (toInt (strtol info 10).1) (strtol info 10).2 x.server
      (networkNickSetData n nick x.username x.hostname)) where
  username := rfl
  hostname := rfl
  server := rfl
  hops := by
    rw [strtol_numberInFront]
    exact (toInt_clampLong (hx.1 ▸ hfits.1) (hx.1 ▸ hfits.2)).trans hx.1.symm
  realname := by
    rw [strtol_numberInFront, hx.2]
    unfold whoreplyNick networkNickSetData realnameIn
    dsimp only
    cases n.fullname <;> rfl
  named := nofun

/-- The last reply for another member of the nick agrees with the line. -/
def SameUser (y x : WhoReply) : Prop :=
  y.username = x.username ∧ y.hostname = x.hostname ∧ y.server = x.server ∧ y.hops = x.hops

theorem WhoReply.HeldBy.other (h : y.HeldBy cn n) (hrep : RepliedNick x n n') (hsame : SameUser y x) :
    y.HeldBy cn n' where
  username := hrep.username.trans (congrArg some hsame.1.symm)
  hostname := hrep.hostname.trans (congrArg some hsame.2.1.symm)
  server := hrep.server.trans (congrArg some hsame.2.2.1.symm)
  flags := h.flags
  hops := hrep.hops.trans hsame.2.2.2.symm
  realname := by rw [hrep.realname, h.realname, Option.getD_some]
  named := hrep.named

/-- The members that the line is not about. -/
theorem HoldsReplies.others (h : HoldsReplies g s) (hn : s.nickHeap k = some n)
    (hrep : RepliedNick x n n') {o : Option Ref}
    (hagree : ∀ m cn y, s.membHeap m = some cn → cn.globalNick = k → g m = some y → o ≠ some m →
      SameUser y x) (hm : s.membHeap m = some cn) (hne : o ≠ some m) {n₁ : NetworkNick}
    (hn₁ : (s.setNick k n').nickHeap cn.globalNick = some n₁) : HeldReply (g m) cn n₁ := by
  rw [NetworkState.setNick_nickHeap, Heap.set_apply] at hn₁
  split at hn₁
  · next hk =>
    cases hn₁
    have hheld := h.held m cn n hm (hk ▸ hn)
    cases hy : g m with
    | none =>
        rw [hy] at hheld
        exact hheld
    | some y =>
        rw [hy] at hheld
        exact hheld.other hrep (hagree m cn y hm hk hy hne)
  · exact h.held m cn n₁ hm hn₁

/-- The line is about no member. -/
theorem HoldsReplies.unlisted (h : HoldsReplies g s) (hn : s.nickHeap k = some n)
    (hrep : RepliedNick x n n') (hagree : ∀ m cn y, s.membHeap m = some cn → cn.globalNick = k →
      g m = some y → SameUser y x) : HoldsReplies g (s.setNick k n') where
  unborn := h.unborn
  born := h.born
  held := fun _ _ _ hm hn₁ =>
    h.others (o := none) hn hrep (fun m cn y hm hk hy _ => hagree m cn y hm hk hy) hm nofun hn₁

/-- The line is about the member `m` of the nick. -/
theorem HoldsReplies.replied (h : HoldsReplies g s) (hn : s.nickHeap k = some n)
    (hrep : RepliedNick x n n') (hagree : ∀ m' cn y, s.membHeap m' = some cn → cn.globalNick = k →
      g m' = some y → some m ≠ some m' → SameUser y x)
    (hm : s.membHeap m = some cn) (hlt : m < s.next) (hk : cn.globalNick = k)
    (hname : n.fullname = none ∨ n.fullname = some x.realname) (now : Long) :
    HoldsReplies (Function.update g m (some x))
      ((s.setNick k n').setMemb m { cn with lastFlags := some x.flags, lastUpdate := now }) where
  unborn := by
    intro r hr
    rw [Function.update_of_ne (hlt.trans_le hr).ne']
    exact h.unborn r hr
  born := by
    intro r cn' hr
    rw [NetworkState.setMemb_membHeap, Heap.set_apply] at hr
    split at hr
    · cases hr
      exact h.born m cn hm
    · exact h.born r cn' hr
  held := by
    intro r cn' n₁ hr hn₁
    rw [NetworkState.setMemb_membHeap, Heap.set_apply] at hr
    split at hr
    · next hrm =>
      subst hrm
      cases hr
      rw [Function.update_self]
      change (s.nickHeap.set k n') cn.globalNick = some n₁ at hn₁
      rw [hk, Heap.set_same] at hn₁
      cases hn₁
      refine ⟨hrep.username, hrep.hostname, hrep.server, rfl, hrep.hops, ?_, hrep.named⟩
      rw [hrep.realname]
      rcases hname with e | e <;> rw [e] <;> rfl
    · next hrm =>
      rw [Function.update_of_ne hrm]
      exact h.others (o := some m) hn hrep hagree hr (fun e => hrm (Option.some.inj e).symm) hn₁

/-- A search on a channel does not tell nicks from nicks that compare alike. -/
theorem findChannelNick_alike (hg : Graph s) (hc : c ∈ s.channels) (hchan : s'.chanHeap = s.chanHeap)
    (hmemb : s'.membHeap = s.membHeap) (hinfo : s'.info = s.info)
    (hnick : ∀ k, Known s k → ∀ n, s.nickHeap k = some n → ∃ n', s'.nickHeap k = some n' ∧
      ∀ w, ircEq (some s.info) n'.nick (some w) = ircEq (some s.info) n.nick (some w)) (name : Str) :
    findChannelNick s' c name = findChannelNick s c name := by
  obtain ⟨ch, hch, hnet, -⟩ := hg.chan_live c hc
  have hch' : s'.chanHeap c = some ch := by rw [hchan, hch]
  have info : s.infoFor ch = some s.info := if_pos hnet
  have info' : s'.infoFor ch = some s.info := by
    rw [NetworkState.infoFor, if_pos hnet, hinfo]
  rw [findChannelNick, findChannelNick, NetworkState.chan_eq hch, NetworkState.chan_eq hch', ok_bind,
    ok_bind, info, info']
  refine findFirst_congr fun r hr => ?_
  obtain ⟨cn, gn, hl, -⟩ := hg.link_of_chan hc hch hr
  obtain ⟨gn', hgn', alike⟩ := hnick _ hl.known gn hl.nick
  rw [NetworkState.memb_eq hl.memb, NetworkState.memb_eq (hmemb ▸ hl.memb), ok_bind, ok_bind,
    NetworkState.nick_eq hl.nick, NetworkState.nick_eq hgn', ok_bind, ok_bind, alike]

theorem ircEq_alike {info : NetworkInfo} {o : Option Str} {a : Str}
    (h : ircEq (some info) o (some a) = .ok true) (w : Str) :
    ircEq (some info) (some a) (some w) = ircEq (some info) o (some w) := by
  obtain ⟨b, rfl, e⟩ := ircEq_true h
  rw [ircEq_fold, ircEq_fold, e]

/-- A 352 line with all its arguments. -/
theorem whoreply_args (hk : commandOf l = some .whoreply) : ∃ y name nick info,
    whoReply l = some y ∧ l.args[2]? = some name ∧ l.args[3]? = some y.username ∧
    l.args[4]? = some y.hostname ∧ l.args[5]? = some y.server ∧ l.args[6]? = some nick ∧
    l.args[7]? = some y.flags ∧ l.args[8]? = some info ∧
    y.hops = (numberInFront info).1 ∧ y.realname = realnameIn (numberInFront info).2 := by
  have hlt : 8 < l.args.length := commandOf_argc hk
  unfold whoReply
  match h : l.args, hlt with
  | a₀ :: a₁ :: a₂ :: a₃ :: a₄ :: a₅ :: a₆ :: a₇ :: a₈ :: as, _ =>
      exact ⟨_, a₂, a₆, a₈, rfl, rfl, rfl, rfl, rfl, rfl, rfl, rfl, rfl, rfl⟩

/-- The nick of a 352 line, found or created, before anything is written into it. -/
structure ReplyFound (g : WhoView) (s : NetworkState) (l : IrcLine) (x : WhoReply) (nick : Str)
    (r : Ref × NetworkState) : Prop where
  holds : HoldsReplies g r.2
  others : ∀ m cn y, r.2.membHeap m = some cn → cn.globalNick = r.1 → g m = some y →
    repliedMember s l ≠ some m → SameUser y x
  member : ∀ m, repliedMember s l = some m → ∃ cn n, r.2.membHeap m = some cn ∧ m < r.2.next ∧
    cn.globalNick = r.1 ∧ r.2.nickHeap r.1 = some n ∧ (n.fullname = none ∨ n.fullname = some x.realname)
  chanHeap : r.2.chanHeap = s.chanHeap
  channels : r.2.channels = s.channels
  membHeap : r.2.membHeap = s.membHeap
  info : r.2.info = s.info
  nickHeap : ∀ k, Known s k → r.2.nickHeap k = s.nickHeap k
  alike : ∀ n, s.nickHeap r.1 = some n → ircEq (some s.info) n.nick (some nick) = .ok true

theorem findAddNetworkNick_replyFound (hg : Graph s) (h : HoldsReplies g s) (hagree : ReplyAgrees g s l x)
    (hnick : l.args[6]? = some nick) :
    Ensures (findAddNetworkNick s nick) (ReplyFound g s l x nick) fun _ => True := by
  have hothers := hagree.others
  have hmember := hagree.member
  rw [hnick, Option.getD_some] at hothers hmember
  rw [findAddNetworkNick]
  cases hf : findNetworkNick s nick with
  | error e => trivial
  | ok o =>
      rw [ok_bind]
      cases o with
      | some k =>
          refine ⟨h, fun m cn y hm hk hy hne => hothers m cn y hm hy hne (hk ▸ hf), fun m hm => ?_,
            rfl, rfl, rfl, rfl, fun _ _ => rfl, fun n hn => ?_⟩
          · obtain ⟨cn, n, hcn, hk, hn, hname⟩ := hmember m hm
            rw [hf] at hk
            cases hk
            exact ⟨cn, n, hcn, hg.memb_lt hcn, rfl, hn, hname⟩
          · obtain ⟨n', hn', htest⟩ := bind_eq_ok (findFirst_some hf).2
            cases (NetworkState.nick_inv hn').symm.trans hn
            exact htest
      | none =>
          dsimp only
          split
          · trivial
          · refine ⟨h.kept (.addNick _), fun m cn y hm hk _ _ => absurd hk (h.born m cn hm).ne,
              fun m hm => ?_, rfl, rfl, rfl, rfl, fun k hk => Heap.set_other (hg.known_lt hk).ne,
              fun n hn => ?_⟩
            · obtain ⟨cn, n, -, hk, -⟩ := hmember m hm
              rw [hf] at hk
              cases hk
            · rw [(hg.fresh s.next le_rfl).1] at hn
              cases hn

/-- The member whom the code finds is the one the line is about. -/
theorem ReplyFound.member_eq {r : Ref × NetworkState} (hg : Graph s) (h : ReplyFound g s l x nick r)
    (hname : l.args[2]? = some name) (hnick : l.args[6]? = some nick) (hn' : n'.nick = some nick)
    (hc : findChannel (r.2.setNick r.1 n') name = .ok (some c)) {o : Option Ref}
    (ho : findChannelNick (r.2.setNick r.1 n') c nick = .ok o) : repliedMember s l = o := by
  have chan : findChannel (r.2.setNick r.1 n') name = findChannel s name := by
    unfold findChannel NetworkState.chan
    rw [NetworkState.setNick_chanHeap, NetworkState.setNick_channels, NetworkState.setNick_info,
      h.chanHeap, h.channels, h.info]
  have memb : findChannelNick (r.2.setNick r.1 n') c nick = findChannelNick s c nick := by
    have hlisted : c ∈ s.channels := (findFirst_some (chan.symm.trans hc)).1
    have hchan : (r.2.setNick r.1 n').chanHeap = s.chanHeap := h.chanHeap
    refine findChannelNick_alike hg hlisted hchan h.membHeap h.info (fun k hk n hn => ?_) nick
    by_cases hkr : k = r.1
    · subst hkr
      refine ⟨n', Heap.set_same _ _ _, fun w => ?_⟩
      rw [hn']
      exact ircEq_alike (h.alike n hn) w
    · refine ⟨n, ?_, fun _ => rfl⟩
      rw [NetworkState.setNick_nickHeap, Heap.set_other hkr, h.nickHeap k hk, hn]
  rw [repliedMember, hname, hnick, Option.getD_some, Option.getD_some, ← chan, hc]
  dsimp only
  rw [← memb, ho]

/-- Nobody was found, so the line is about no member. -/
theorem ReplyFound.nobody {r : Ref × NetworkState} (h : ReplyFound g s l x nick r)
    (hname : l.args[2]? = some name) (hc : findChannel (r.2.setNick r.1 n') name = .ok none) :
    repliedMember s l = none := by
  have chan : findChannel (r.2.setNick r.1 n') name = findChannel s name := by
    unfold findChannel NetworkState.chan
    rw [NetworkState.setNick_chanHeap, NetworkState.setNick_channels, NetworkState.setNick_info,
      h.chanHeap, h.channels, h.info]
  rw [repliedMember, hname, Option.getD_some, ← chan, hc]

theorem handleWhoreply_replies (hg : Graph s) (h : HoldsReplies g s) (hk : commandOf l = some .whoreply)
    (hagree : ∀ y, whoReply l = some y → ReplyAgrees g s l y) (now : Long) :
    Ensures (handleWhoreply now s l) (HoldsReplies (whoStep s g l)) fun _ => True := by
  obtain ⟨x, name, nick, info, hx, h2, h3, h4, h5, h6, h7, h8, hhops, hreal⟩ := whoreply_args hk
  have agree := hagree x hx
  have view_none : repliedMember s l = none → whoStep s g l = g := by
    intro hnone
    rw [whoStep, if_pos hk, hx]
    simp only [hnone]
  have view_some : ∀ m, repliedMember s l = some m →
      whoStep s g l = Function.update g m (some x) := by
    intro m hsome
    rw [whoStep, if_pos hk, hx]
    simp only [hsome]
  rw [handleWhoreply, IrcLine.argStr_eq h6, ok_bind]
  refine (findAddNetworkNick_replyFound hg h agree h6).bind ?_
  rintro ⟨k, s₁⟩ found
  dsimp only
  rw [IrcLine.argStr_eq h3, ok_bind, IrcLine.argStr_eq h4, ok_bind]
  refine (NetworkState.modifyNick_ensures open_faults _ _).bind ?_
  rintro _ ⟨n, hn, rfl⟩
  rw [IrcLine.argStr_eq h8, ok_bind, IrcLine.argStr_eq h5, ok_bind]
  refine (NetworkState.modifyNick_ensures open_faults _ _).bind ?_
  rintro _ ⟨n₁, hn₁, rfl⟩
  rw [NetworkState.setNick_nickHeap, Heap.set_same] at hn₁
  cases hn₁
  have hrep := repliedNick_of (x := x) n nick ⟨hhops, hreal⟩ agree.hops
  have twice : ∀ n₁ n₂ : NetworkNick, (s₁.setNick k n₁).setNick k n₂ = s₁.setNick k n₂ := fun n₁ n₂ => by
    simp only [NetworkState.setNick, Heap.set_set]
  rw [twice, IrcLine.argStr_eq h2, ok_bind]
  set n' := whoreplyNick (toInt (strtol info 10).1) (strtol info 10).2 x.server
    (networkNickSetData n nick x.username x.hostname) with hn'
  have nobody : repliedMember s l = none → HoldsReplies (whoStep s g l) (s₁.setNick k n') := by
    intro hnone
    rw [view_none hnone]
    refine found.holds.unlisted hn hrep fun m cn y hm hk hy => found.others m cn y hm hk hy ?_
    rw [hnone]
    exact (Option.some_ne_none m).symm
  cases hc : findChannel (s₁.setNick k n') name with
  | error e => trivial
  | ok o =>
      cases o with
      | none => exact nobody (found.nobody h2 hc)
      | some c =>
          rw [ok_bind]
          dsimp only
          rw [NetworkState.nick_eq (Heap.set_same _ _ _), ok_bind]
          change Ensures (findChannelNick (s₁.setNick k n') c nick >>= _) _ _
          cases hm : findChannelNick (s₁.setNick k n') c nick with
          | error e => trivial
          | ok o =>
              have member := found.member_eq hg h2 h6 rfl hc hm
              cases o with
              | none => exact nobody member
              | some m =>
                  obtain ⟨cn, n₀, hcn, hlt, hglobal, hn₀, hname⟩ := found.member m member
                  cases hn.symm.trans hn₀
                  rw [ok_bind]
                  dsimp only
                  have hmemb : (s₁.setNick k n').memb m = .ok cn := NetworkState.memb_eq hcn
                  rw [hmemb, ok_bind, IrcLine.arg_eq h7, view_some m member]
                  refine found.holds.replied hn hrep (fun m' cn' y hm' hk' hy hne => ?_) hcn hlt hglobal
                    hname now
                  exact found.others m' cn' y hm' hk' hy (member ▸ hne)

end

/-! ### Runs -/

section
variable {s : NetworkState} {g : WhoView} {l : IrcLine}

theorem handleJoin_replies (hg : Graph s) (h : HoldsReplies g s) (hl : WhoLine (s, g) l)
    (hk : commandOf l = some .join) : Ensures (handleJoin s l) (HoldsReplies g) fun _ => True := by
  unfold handleJoin
  split
  · exact h
  next o ho =>
  rw [lineGetNick, ho, ok_bind]
  refine (IrcLine.argStr_ensures open_faults 1).bind fun channels hchannels => ?_
  have loop := Ensures.foldlM_along (E := fun _ => True) (I := fun s => Graph s ∧ HoldsReplies g s)
    (fun s name hs hname => ?_) ⟨hg, h⟩ (hl.join hk o channels ho hchannels)
  · exact loop.imp fun _ => And.right
  · have graph : Ensures (joinChannel o (o.takeWhile (· ≠ chr '!')) s name) Graph fun _ => True :=
      (joinChannel_edits open_faults hs.1 (fun _ => trivial) name).imp fun _ e => e.graph hs.1
    exact (graph.and (joinChannel_replies hs.1 hs.2 hname)).mono (fun _ h => h) fun _ _ => trivial

theorem handle302_replies (h : HoldsReplies g s) (hl : WhoLine (s, g) l)
    (hk : commandOf l = some .c302) : Ensures (handle302 s l) (HoldsReplies g) fun _ => True := by
  refine (IrcLine.argStr_ensures open_faults 2).bind fun users husers => ?_
  exact Ensures.foldlM_along (fun s user hs hu => userhost_replies hs hu) h (hl.userhost hk users husers)

/-- A line that agrees with the replies leaves them held, and with it the next reply. -/
theorem whoRunStep_holds {i : Input} (hg : Graph s) (h : HoldsReplies g s) (hl : WhoLine (s, g) i.2) :
    Ensures (whoRunStep (s, g) i) (fun x => Graph x.1 ∧ HoldsReplies x.2 x.1) fun _ => True := by
  have step : Ensures (stateStep s i) (HoldsReplies (whoStep s g i.2)) fun _ => True := by
    cases hk : commandOf i.2 with
    | none =>
        rw [stateStep_none hk, whoStep, hk]
        exact h
    | some k =>
        rw [stateStep_handler hk]
        by_cases hwho : k = .whoreply
        · subst hwho
          exact handleWhoreply_replies hg h hk (hl.reply hk) i.1
        have same : whoStep s g i.2 = g := by
          rw [whoStep, hk]
          exact if_neg fun e => hwho (Option.some.inj e)
        rw [same]
        by_cases hjoin : k = .join
        · subst hjoin
          exact handleJoin_replies hg h hl hk
        by_cases h302 : k = .c302
        · subst h302
          exact handle302_replies h hl hk
        · exact (handler_people hg hk hjoin h302 hwho i.1).imp fun _ => h.kept
  have graph : Ensures (stateStep s i) Graph fun _ => True :=
    (stateStep_step hg i).mono (fun _ hs => hs.graph hg) fun _ _ => trivial
  exact ((graph.and step).mono (fun _ h => h) fun _ _ => trivial).bind fun s' hs' => hs'

/-- Before the first reply a line agrees with what was said. -/
theorem WhoLine.first (h : commandOf l = some .whoreply → ∀ y, whoReply l = some y →
    ReplyAgrees (fun _ => none) s l y) : WhoLine (s, fun _ => none) l where
  join := fun _ _ _ _ _ => Along.of_forall (fun _ _ _ _ _ _ _ _ _ _ _ hx => by cases hx) _ _
  userhost := fun _ _ _ => Along.of_forall (fun _ _ _ _ _ _ _ _ _ _ _ _ _ _ _ _ hx => by cases hx) _ _
  reply := h

/-- A line of another kind says nothing. -/
theorem WhoLine.other (hjoin : commandOf l ≠ some .join) (h302 : commandOf l ≠ some .c302)
    (hwho : commandOf l ≠ some .whoreply) : WhoLine (s, g) l :=
  ⟨fun h => absurd h hjoin, fun h => absurd h h302, fun h => absurd h hwho⟩

theorem networkStateInit_replies (nick username hostname : Str) :
    HoldsReplies (fun _ => none) (networkStateInit nick username hostname) where
  unborn := fun _ _ => rfl
  born := fun _ _ hm => by cases hm
  held := fun _ _ _ hm => by cases hm

/-- The last replies are held after every run of lines that agree with them. -/
theorem whoRun_holds {nick username hostname : Str} {x : NetworkState × WhoView}
    (h : Reach whoRunStep (fun x i => WhoLine x i.2)
      (networkStateInit nick username hostname, fun _ => none) x) :
    Graph x.1 ∧ HoldsReplies x.2 x.1 := by
  refine h.invariant (I := fun x => Graph x.1 ∧ HoldsReplies x.2 x.1)
    ⟨networkStateInit_graph _ _ _, networkStateInit_replies _ _ _⟩ ?_
  rintro ⟨s, g⟩ i ⟨hg, hheld⟩ hl
  exact whoRunStep_holds hg hheld hl

end

end Ctrlproxy
