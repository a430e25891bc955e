import Ctrlproxy.State.Hostmask
import Ctrlproxy.State.Totality

/-!
# Client — the user while a state is spelled out

`c->state` gets every line that spells out a channel: JOIN, 332, 333, 353 and 366.  It stays whole,
and the user keeps the nick and the hostmask that the next lines are written with (`Hosting`).  A
JOIN sets a hostmask, but to the one the user has; the names of a 353 line may be wrong in memory,
and are still names.
-/

namespace Ctrlproxy
open Outcome

/-! ### What the user is called -/

/-- The nick and the hostmask of the user. -/
def identityOf (s : NetworkState) : Option (Option Str × Option Str) :=
  (s.nickHeap meRef).map fun n => (n.nick, n.hostmask)

section
variable {s s' : NetworkState}

theorem identityOf_congr (h : s'.nickHeap meRef = s.nickHeap meRef) :
    identityOf s' = identityOf s := by
  rw [identityOf, identityOf, h]

theorem identityOf_keep {r : Ref} {n n' : NetworkNick} (hs : s'.nickHeap = s.nickHeap.set r n')
    (hr : s.nickHeap r = some n) (hnick : n'.nick = n.nick) (hmask : n'.hostmask = n.hostmask) :
    identityOf s' = identityOf s := by
  rw [identityOf, identityOf, hs, Heap.set_apply]
  by_cases hme : meRef = r
  · rw [if_pos hme, hme, hr, Option.map_some, Option.map_some, hnick, hmask]
  · rw [if_neg hme]

theorem AttrEdit.identity {n n' : NetworkNick} (e : AttrEdit n n') :
    n'.nick = n.nick ∧ n'.hostmask = n.hostmask := by
  cases e <;> exact ⟨rfl, rfl⟩

theorem Trim.identity (e : Trim s s') (h : Graph s) : identityOf s' = identityOf s := by
  cases e with
  | query hr => exact identityOf_keep rfl hr rfl rfl
  | unlink _ _ _ _ hgn => exact identityOf_keep rfl hgn rfl rfl
  | dropNick hmem _ _ =>
      exact identityOf_congr (Heap.del_other fun e => h.me_not_listed (e ▸ hmem))
  | dropChan _ _ _ => rfl

theorem Quiet.identity (e : Quiet s s') (h : Graph s) : identityOf s' = identityOf s := by
  cases e with
  | trim e => exact e.identity h
  | nick hr e => exact identityOf_keep rfl hr e.identity.1 e.identity.2
  | chan _ _ _ _ _ => rfl
  | memb _ _ _ _ => rfl
  | addChan _ => rfl
  | away _ => rfl

/-- A line that names no nick leaves the user's alone. -/
theorem Quiets.identity (e : Quiets s s') (h : Graph s) : identityOf s' = identityOf s := by
  have kept : Graph s' ∧ identityOf s' = identityOf s :=
    e.keeps (I := fun t => Graph t ∧ identityOf t = identityOf s)
      (fun e ht => ⟨e.graph ht.1, (e.identity ht.1).trans ht.2⟩) ⟨h, rfl⟩
  exact kept.2

theorem addNick_identity (h : Graph s) (n : NetworkNick) :
    identityOf (addNick s n) = identityOf s := by
  have hne : meRef ≠ s.next := (h.known_lt (.inl rfl)).ne
  exact identityOf_congr (Heap.set_other hne)

/-! ### The announcements a state starts with -/

theorem prefixTable_init : prefixTable networkInfoInit =
    some [(chr '@', chr 'o'), (chr '+', chr 'v')] := by
  decide

theorem isPrefix_init {p : Byte} :
    isPrefix (some p) (some networkInfoInit) = true ↔ p = chr '@' ∨ p = chr '+' := by
  have hend : prefixEnd networkInfoInit.prefixes = [chr '@', chr '+'] := by decide
  rw [isPrefix, hend]
  simp

theorem not_prefixFF_init (name : Str) : ¬ PrefixFF networkInfoInit name := by
  rintro ⟨p, -, hmode⟩
  rw [getModeByPrefix, prefixTable_init] at hmode
  obtain ⟨e, he, hFF⟩ := Option.map_eq_some_iff.mp hmode
  have hmem := List.mem_of_find?_eq_some he
  have table : ∀ e ∈ [(chr '@', chr 'o'), (chr '+', chr 'v')], e.2 ≠ byteFF := by decide
  exact table e hmem hFF

/-! ### New members -/

theorem findAddNetworkNick_identity (h : Graph s) (name : Str) :
    Ensures (findAddNetworkNick s name) (fun r => identityOf r.2 = identityOf s)
      (fun _ => True) := by
  refine (findNetworkNick_ensures (fun _ _ => trivial) name).bind fun r _ => ?_
  cases r with
  | some g => rfl
  | none =>
      dsimp only
      split
      · trivial
      · exact addNick_identity h _

theorem findAddChannelNick_identity (h : Graph s) (c : Ref) (name : Str) :
    Ensures (findAddChannelNick s c name) (fun r => identityOf r.2 = identityOf s)
      (fun _ => True) := by
  unfold findAddChannelNick
  split
  · trivial
  refine (NetworkState.chan_ensures (fun _ _ => trivial) c).bind fun ch _ => ?_
  split
  · trivial
  refine (findChannelNick_ensures (fun _ _ => trivial) c _).bind fun r _ => ?_
  cases r with
  | some m => rfl
  | none =>
      refine (findAddNetworkNick_identity h _).bind ?_
      rintro ⟨g, s₁⟩ hs₁
      refine Ensures.bind (Q := fun _ => True) (by cases prefixModes s₁.info _ <;> trivial) ?_
      intro modes _
      refine (NetworkState.chan_ensures (fun _ _ => trivial) c).bind fun ch₁ _ => ?_
      refine (NetworkState.nick_ensures (fun _ _ => trivial) g).bind fun gn hgn => ?_
      have hadd : identityOf (addMemb s₁ c g ch₁ gn modes) = identityOf s₁ :=
        identityOf_keep rfl hgn rfl rfl
      exact hadd.trans hs₁

/-- The hostmask a nick has is set again. -/
theorem networkNickSetHostmask_same {n : NetworkNick} {hm : Str} (h : n.hostmask = some hm) :
    networkNickSetHostmask n hm = n := by
  rw [networkNickSetHostmask, if_pos h]

/-! ### A state that hosts a user -/

/-- A whole state of a user with this nick and hostmask, without announcements. -/
structure Hosting (nick hm : Str) (s : NetworkState) : Prop where
  whole : Whole s
  info : s.info = networkInfoInit
  identity : identityOf s = some (some nick, some hm)

variable {nick hm : Str}

theorem Hosting.me (h : Hosting nick hm s) :
    ∃ me, s.nickHeap meRef = some me ∧ me.nick = some nick ∧ me.hostmask = some hm := by
  obtain ⟨me, hme, e⟩ := Option.map_eq_some_iff.mp h.identity
  rw [Prod.mk.injEq] at e
  exact ⟨me, hme, e.1, e.2⟩

/-- A line that names no nick leaves the user the same. -/
theorem Hosting.quiet (h : Hosting nick hm s) {l : IrcLine} {k : Command}
    (hk : commandOf l = some k) (hq : k.isQuiet = true) (now : Long)
    (ht : Total (k.handler now s l) Whole) : Total (stateStep s (now, l)) (Hosting nick hm) := by
  have hstep : stateStep s (now, l) = k.handler now s l := stateStep_handler hk
  rw [hstep]
  obtain ⟨s', hs', hw⟩ := ht.exists_ok
  have e : Quiets s s' := ((handler_silent h.whole.graph hk hq now).of_ok hs').quiets
  exact ensures_of_eq_ok hs' ⟨hw, e.edits.info_eq.trans h.info,
    (e.identity h.whole.graph).trans h.identity⟩

theorem joinChannel_identity (h : Graph s) (hid : identityOf s = some (some nick, some hm))
    (n name : Str) : Ensures (joinChannel hm n s name)
      (fun s' => identityOf s' = some (some nick, some hm)) (fun _ => True) := by
  refine (findAddChannel_silent (fun _ _ => trivial) name).bind ?_
  rintro ⟨c, s₁⟩ ⟨e₁, -⟩
  refine (findAddChannelNick_identity (e₁.graph h) c n).bind ?_
  rintro ⟨m, s₂⟩ hs₂
  replace hs₂ : identityOf s₂ = some (some nick, some hm) := hs₂.trans ((e₁.quiets.identity h).trans hid)
  refine (NetworkState.memb_ensures (fun _ _ => trivial) m).bind fun cn _ => ?_
  refine (NetworkState.modifyNick_ensures (fun _ _ => trivial) _ _).bind ?_
  rintro _ ⟨g, hg, rfl⟩
  refine (NetworkState.nick_ensures (fun _ _ => trivial) _).bind fun me _ => ?_
  refine (irccmp_ensures (fun _ _ => trivial) _ _ _).bind fun _ _ => ?_
  by_cases hme : cn.globalNick = meRef
  · -- the user's own hostmask is set to itself
    have hsame : g.hostmask = some hm := by
      obtain ⟨me, hme', e⟩ := Option.map_eq_some_iff.mp hs₂
      rw [hme, hme'] at hg
      cases hg
      exact (Prod.mk.inj e).2
    have hn := networkNickSetHostmask_same hsame
    refine (identityOf_keep rfl hg ?_ ?_).trans hs₂ <;> rw [hn]
  · exact (identityOf_congr (Heap.set_other (Ne.symm hme))).trans hs₂

/-- The user joins a channel. -/
theorem Hosting.join (h : Hosting nick hm s) (hne : nick ≠ []) (hbang : chr '!' ∈ hm)
    (hnick : upToBang hm = nick) (hp : isPrefix nick.head? (some networkInfoInit) = false)
    {l : IrcLine} (hk : commandOf l = some .join) (ho : l.origin = some hm) (now : Long) :
    Total (stateStep s (now, l)) (Hosting nick hm) := by
  have hstep : stateStep s (now, l) = handleJoin s l := stateStep_handler (k := .join) hk
  have hstrip : stripPrefix (some s.info) nick = nick := stripPrefix_of_not (h.info ▸ hp)
  have hFF : ¬ PrefixFF s.info nick := h.info ▸ not_prefixFF_init nick
  have hfront : hm.takeWhile (· ≠ chr '!') = nick := hnick
  have total : Total (handleJoin s l) Whole := by
    refine handleJoin_total h.whole (commandOf_argc hk) ?_ ?_
    all_goals
      intro o ho'
      rw [ho] at ho'
      cases ho'
      rw [hfront]
    · exact ⟨hne, hbang, by rw [hstrip, h.info]; exact hp⟩
    · exact hFF
  have edits : Ensures (handleJoin s l) (Edits s) (fun _ => True) := by
    refine handleJoin_edits (fun _ _ => trivial) h.whole.graph fun _ _ _ => trivial
  have identity : Ensures (handleJoin s l)
      (fun s' => identityOf s' = some (some nick, some hm)) (fun _ => True) := by
    rw [handleJoin, ho]
    refine (lineGetNick_ensures (fun _ _ => trivial)).bind fun n _ => ?_
    refine (IrcLine.argStr_ensures (fun _ _ => trivial) 1).bind fun channels _ => ?_
    have loop := Ensures.foldlM (f := joinChannel hm n) (l := gStrsplit channels (chr ','))
      (b := s) (I := fun s' => Graph s' ∧ identityOf s' = some (some nick, some hm))
      (E := fun _ => True) ?_ ⟨h.whole.graph, h.identity⟩
    · exact loop.imp fun _ => And.right
    rintro s' name - ⟨hg, hid⟩
    have e : Ensures (joinChannel hm n s' name) (Edits s') (fun _ => True) :=
      joinChannel_edits (fun _ _ => trivial) hg (fun _ => trivial) name
    refine ((joinChannel_identity hg hid n name).and e).mono ?_ fun _ _ => trivial
    rintro s'' ⟨hid', e⟩
    exact ⟨e.graph hg, hid'⟩
  rw [hstep]
  obtain ⟨s', hs', hw⟩ := total.exists_ok
  exact ensures_of_eq_ok hs'
    ⟨hw, (edits.of_ok hs').info_eq.trans h.info, identity.of_ok hs'⟩

/-- A list of names leaves the user's alone. -/
theorem handleNamreply_identity (h : Graph s) (l : IrcLine) :
    Ensures (handleNamreply s l) (fun s' => identityOf s' = identityOf s) (fun _ => True) := by
  refine (IrcLine.argStr_ensures (fun _ _ => trivial) 3).bind fun chan _ => ?_
  refine (findChannel_ensures (fun _ _ => trivial) chan).bind fun r hr => ?_
  cases r with
  | none => rfl
  | some c =>
      refine (IrcLine.argStr_ensures (fun _ _ => trivial) 4).bind fun names _ => ?_
      refine (IrcLine.argStr_ensures (fun _ _ => trivial) 2).bind fun mode _ => ?_
      have hmode : KeepsChannel fun ch => { ch with mode := mode.head? } :=
        ⟨fun _ => rfl, fun _ => rfl, fun _ => rfl, fun _ => KeepsNul.refl _⟩
      refine (modifyChan_silent (fun _ _ => trivial) c hmode).bind ?_
      rintro s₁ ⟨e₁, hcs₁⟩
      have hg₁ : Graph s₁ := e₁.graph h
      refine (restartNames_silent (fun _ _ => trivial) hg₁ (hcs₁ ▸ hr c rfl)).bind ?_
      rintro s₂ ⟨e₂, hcs₂⟩
      have q : Quiets s s₂ := (e₁.trans e₂).quiets
      have hg₂ : Graph s₂ := e₂.graph hg₁
      have loop := Ensures.foldlM (f := addName c) (l := gStrsplit names (chr ' ')) (b := s₂)
        (I := fun s' => Graph s' ∧ s'.channels = s₂.channels ∧ identityOf s' = identityOf s)
        (E := fun _ => True) ?_ ⟨hg₂, rfl, q.identity h⟩
      · exact loop.imp fun _ h' => h'.2.2
      rintro s' name - ⟨hg, hcs, hid⟩
      unfold addName
      split
      · exact ⟨hg, hcs, hid⟩
      have hc : c ∈ s'.channels := hcs ▸ hcs₂ ▸ hcs₁ ▸ hr c rfl
      have e : Ensures (findAddChannelNick s' c name) _ (fun _ => True) :=
        findAddChannelNick_edits (fun _ _ => trivial) hg hc fun _ => trivial
      refine Ensures.mono (((findAddChannelNick_identity hg c name).and e).bind ?_)
        (fun _ => id) fun _ _ => trivial
      rintro ⟨m, s''⟩ ⟨hid', e, hcs', -⟩
      exact ⟨e.graph hg, hcs'.trans hcs, hid'.trans hid⟩

/-- Names are listed, none of which begins with two prefix characters. -/
theorem Hosting.names (h : Hosting nick hm s) {l : IrcLine} (hk : commandOf l = some .namreply)
    (hsafe : NamesSafe s l) (now : Long) :
    Total (stateStep s (now, l)) (Hosting nick hm) := by
  have hstep : stateStep s (now, l) = handleNamreply s l := stateStep_handler (k := .namreply) hk
  have total : Total (handleNamreply s l) Whole := by
    refine handleNamreply_total h.whole (commandOf_argc hk) (fun _ => hsafe) ?_
    rintro ⟨-, w, -, name, -, hFF⟩
    exact not_prefixFF_init name (h.info ▸ hFF)
  have edits : Ensures (handleNamreply s l) (Edits s) (fun _ => True) :=
    handleNamreply_edits (fun _ _ => trivial) h.whole.graph fun _ => trivial
  have identity := handleNamreply_identity h.whole.graph l
  rw [hstep]
  obtain ⟨s', hs', hw⟩ := total.exists_ok
  exact ensures_of_eq_ok hs' ⟨hw, (edits.of_ok hs').info_eq.trans h.info,
    (identity.of_ok hs').trans h.identity⟩

end

end Ctrlproxy
