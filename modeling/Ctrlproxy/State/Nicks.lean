import Ctrlproxy.Base.Casemap
import Ctrlproxy.State.Membership

/-!
# State — the names of nicks

`Unique m s`: under the case mapping `m`, every known nick has a name, no two have the same, and no
channel lists one twice.  Quiet edits keep it.  The lines that name nicks keep it when they do not
hand a name that is in use to another nick, and do not take a name away (`NickSafe`):

* JOIN reads the name off the origin with `network_nick_set_hostmask`, which finds none where there
  is no `!`, and finds one that starts with a prefix character where `find_add_channel_nick` looked
  up the name without it;
* NICK and 001 rename without asking whether the name is taken;
* 302 composes a hostmask whose name ends at the first `!`, also one inside the nick it was given;
* 353 looks a member up without two prefix characters and adds it without one.
-/

namespace Ctrlproxy
open Outcome

/-! ### Names -/

/-- The name of the nick at an address. -/
def nameOf (s : NetworkState) (g : Ref) : Option Str := (s.nickHeap g).bind (·.nick)

theorem nameOf_eq {s : NetworkState} {g : Ref} {n : NetworkNick} (h : s.nickHeap g = some n) :
    nameOf s g = n.nick := by
  rw [nameOf, h]
  rfl

theorem nameOf_congr {s s' : NetworkState} {g : Ref} (h : s'.nickHeap g = s.nickHeap g) :
    nameOf s' g = nameOf s g := by
  rw [nameOf, nameOf, h]

theorem nameOf_set_same {s : NetworkState} {g : Ref} {n : NetworkNick} :
    nameOf (s.setNick g n) g = n.nick :=
  nameOf_eq (Heap.set_same _ _ _)

theorem nameOf_set_other {s : NetworkState} {g g' : Ref} {n : NetworkNick} (h : g' ≠ g) :
    nameOf (s.setNick g n) g' = nameOf s g' :=
  nameOf_congr (Heap.set_other h)

/-- Names are there and are unique. -/
structure Unique (m : Casemapping) (s : NetworkState) : Prop where
  named : ∀ g, Known s g → ∃ a, nameOf s g = some a
  distinct : ∀ g g' a a', Known s g → Known s g' → nameOf s g = some a → nameOf s g' = some a' →
    m.fold a = m.fold a' → g = g'
  members : ∀ c ∈ s.channels, ∀ ch, s.chanHeap c = some ch → ∀ x ∈ ch.nicks, ∀ y ∈ ch.nicks,
    ∀ cn cn', s.membHeap x = some cn → s.membHeap y = some cn' →
      cn.globalNick = cn'.globalNick → x = y

section
variable {m : Casemapping} {s s' : NetworkState}

/-- Names are unique in a state whose nicks and members are among those of one where they are. -/
theorem Unique.of_sub (h : Unique m s) (hk : ∀ g, Known s' g → Known s g)
    (hn : ∀ g, Known s' g → nameOf s' g = nameOf s g)
    (hm : ∀ c ∈ s'.channels, ∀ ch', s'.chanHeap c = some ch' → ch'.nicks = [] ∨
      c ∈ s.channels ∧ ∃ ch, s.chanHeap c = some ch ∧ ch'.nicks ⊆ ch.nicks)
    (hx : ∀ x cn', s'.membHeap x = some cn' →
      ∃ cn, s.membHeap x = some cn ∧ cn.globalNick = cn'.globalNick) : Unique m s' where
  named := by
    intro g hg
    obtain ⟨a, ha⟩ := h.named g (hk g hg)
    exact ⟨a, (hn g hg).trans ha⟩
  distinct := by
    intro g g' a a' hg hg' ha ha' e
    rw [hn g hg] at ha
    rw [hn g' hg'] at ha'
    exact h.distinct g g' a a' (hk g hg) (hk g' hg') ha ha' e
  members := by
    intro c hc ch' hch' x hx' y hy' cn cn' hcn hcn' e
    rcases hm c hc ch' hch' with hnil | ⟨hc₀, ch, hch, hsub⟩
    · rw [hnil] at hx'
      cases hx'
    obtain ⟨cn₀, hcn₀, e₁⟩ := hx x cn hcn
    obtain ⟨cn₀', hcn₀', e₂⟩ := hx y cn' hcn'
    exact h.members c hc₀ ch hch x (hsub hx') y (hsub hy') cn₀ cn₀' hcn₀ hcn₀'
      (e₁.trans (e.trans e₂.symm))

theorem AttrEdit.nick_eq {n n' : NetworkNick} (e : AttrEdit n n') : n'.nick = n.nick := by
  cases e <;> rfl

/-- A nick keeps its name when it is replaced by one with that name. -/
theorem nameOf_keep {r : Ref} {n n' : NetworkNick} (hs : s'.nickHeap = s.nickHeap.set r n')
    (hr : s.nickHeap r = some n) (e : n'.nick = n.nick) (g : Ref) : nameOf s' g = nameOf s g := by
  rw [nameOf, nameOf, hs, Heap.set_apply]
  split
  · subst_vars
    rw [hr]
    exact e
  · rfl

/-- The members of the channels stay. -/
theorem same_members (hc : s'.channels = s.channels) (hh : s'.chanHeap = s.chanHeap) :
    ∀ c ∈ s'.channels, ∀ ch', s'.chanHeap c = some ch' → ch'.nicks = [] ∨
      c ∈ s.channels ∧ ∃ ch, s.chanHeap c = some ch ∧ ch'.nicks ⊆ ch.nicks :=
  fun _ hc' ch' hch' => .inr ⟨hc ▸ hc', ch', hh ▸ hch', fun _ => id⟩

/-- A destructor leaves no nick that was not there, and every nick it leaves has its name. -/
theorem Trim.names (e : Trim s s') (hg : Graph s) {g : Ref} (hk : Known s' g) :
    Known s g ∧ nameOf s' g = nameOf s g := by
  cases e with
  | query hr => exact ⟨hk, nameOf_keep rfl hr (by rfl) g⟩
  | unlink _ _ _ _ hgn => exact ⟨hk, nameOf_keep rfl hgn (by rfl) g⟩
  | dropNick hmem _ _ =>
      rcases hk with rfl | hk
      · exact ⟨.inl rfl, nameOf_congr (Heap.del_other fun e => hg.me_not_listed (e ▸ hmem))⟩
      · obtain ⟨hne, hk⟩ := hg.nicks_nodup.mem_erase_iff.mp hk
        exact ⟨.inr hk, nameOf_congr (Heap.del_other hne)⟩
  | dropChan _ _ _ => exact ⟨hk, rfl⟩

theorem Trims.names (e : Trims s s') (hg : Graph s) {g : Ref} (hk : Known s' g) :
    Known s g ∧ nameOf s' g = nameOf s g := by
  induction e generalizing g with
  | refl => exact ⟨hk, rfl⟩
  | tail e₁ e₂ ih =>
      obtain ⟨hk₁, hn₁⟩ := e₂.names (Trims.graph e₁ hg) hk
      obtain ⟨hk₀, hn₀⟩ := ih hk₁
      exact ⟨hk₀, hn₁.trans hn₀⟩

theorem Trim.unique (e : Trim s s') (hg : Graph s) (h : Unique m s) : Unique m s' := by
  refine h.of_sub (fun g hk => (e.names hg hk).1) (fun g hk => (e.names hg hk).2) ?_ ?_
  · cases e with
    | query _ => exact same_members rfl rfl
    | unlink _ _ _ hch _ =>
        intro c hc ch' hch'
        replace hch' : Heap.set s.chanHeap _ _ c = some ch' := hch'
        rw [Heap.set_apply] at hch'
        split at hch'
        · subst_vars
          cases hch'
          exact .inr ⟨hc, _, hch, fun x hx => List.mem_of_mem_erase hx⟩
        · exact .inr ⟨hc, ch', hch', fun _ => id⟩
    | dropNick _ _ _ => exact same_members rfl rfl
    | dropChan _ _ _ =>
        intro c hc ch' hch'
        exact .inr ⟨List.mem_of_mem_erase hc, ch', Heap.of_del hch', fun _ => id⟩
  · cases e with
    | unlink _ _ _ _ _ => exact fun x cn' hx => ⟨cn', Heap.of_del hx, rfl⟩
    | _ => exact fun x cn' hx => ⟨cn', hx, rfl⟩

theorem Quiet.unique (e : Quiet s s') (hg : Graph s) (h : Unique m s) : Unique m s' := by
  cases e with
  | trim t => exact t.unique hg h
  | nick hr he =>
      exact h.of_sub (fun _ => id) (fun g _ => nameOf_keep rfl hr he.nick_eq g)
        (same_members rfl rfl) fun x cn' hx => ⟨cn', hx, rfl⟩
  | chan hr _ hn _ _ =>
      refine h.of_sub (fun _ => id) (fun _ _ => rfl) ?_ fun x cn' hx => ⟨cn', hx, rfl⟩
      intro c hc ch' hch'
      rw [NetworkState.setChan_chanHeap, Heap.set_apply] at hch'
      split at hch'
      · subst_vars
        cases hch'
        exact .inr ⟨hc, _, hr, fun x hx => hn ▸ hx⟩
      · exact .inr ⟨hc, ch', hch', fun _ => id⟩
  | memb hr _ hn _ =>
      refine h.of_sub (fun _ => id) (fun _ _ => rfl) (same_members rfl rfl) ?_
      intro x cn' hx
      rw [NetworkState.setMemb_membHeap, Heap.set_apply] at hx
      split at hx
      · subst_vars
        cases hx
        exact ⟨_, hr, hn.symm⟩
      · exact ⟨cn', hx, rfl⟩
  | addChan name =>
      refine h.of_sub (fun _ => id) (fun _ _ => rfl) ?_ fun x cn' hx => ⟨cn', hx, rfl⟩
      intro c hc ch' hch'
      rcases List.mem_append.mp hc with hc | hc
      · have hne : c ≠ s.next := (hg.channel_lt hc).ne
        exact .inr ⟨hc, ch', (Heap.set_other hne).symm.trans hch', fun _ => id⟩
      · rw [List.mem_singleton.mp hc] at hch'
        cases (Heap.set_same _ _ _).symm.trans hch'
        exact .inl rfl
  | away b => exact ⟨h.named, h.distinct, h.members⟩

theorem Quiets.unique (e : Quiets s s') (hg : Graph s) (h : Unique m s) : Unique m s' := by
  have both : Graph s' ∧ Unique m s' :=
    e.keeps (I := fun s => Graph s ∧ Unique m s)
      (fun q h => ⟨q.graph h.1, q.unique h.1 h.2⟩) ⟨hg, h⟩
  exact both.2

/-- A nick may take a name no other known nick has. -/
theorem Unique.setName (h : Unique m s) {r : Ref} {n' : NetworkNick} {x : Str}
    (hx : n'.nick = some x)
    (hfree : ∀ g a, Known s g → g ≠ r → nameOf s g = some a → m.fold a ≠ m.fold x) :
    Unique m (s.setNick r n') where
  named := by
    intro g hg
    by_cases e : g = r
    · subst e
      exact ⟨x, nameOf_set_same.trans hx⟩
    · rw [nameOf_set_other e]
      exact h.named g hg
  distinct := by
    intro g g' a a' hg hg' ha ha' he
    by_cases e : g = r <;> by_cases e' : g' = r
    · rw [e, e']
    · subst e
      rw [nameOf_set_same, hx] at ha
      rw [nameOf_set_other e'] at ha'
      cases ha
      exact absurd he.symm (hfree g' a' hg' e' ha')
    · subst e'
      rw [nameOf_set_same, hx] at ha'
      rw [nameOf_set_other e] at ha
      cases ha'
      exact absurd he (hfree g a hg e ha)
    · rw [nameOf_set_other e] at ha
      rw [nameOf_set_other e'] at ha'
      exact h.distinct g g' a a' hg hg' ha ha' he
  members := h.members

/-- A nick may be given the name it has, up to case. -/
theorem Unique.setName_fold (h : Unique m s) {r : Ref} {n' : NetworkNick} {a x : Str}
    (hr : Known s r) (ha : nameOf s r = some a) (hx : n'.nick = some x)
    (e : m.fold a = m.fold x) : Unique m (s.setNick r n') := by
  refine h.setName hx fun g b hg hne hb he => hne ?_
  exact h.distinct g r b a hg hr hb ha (he.trans e.symm)

/-- A new nick may have a name no known nick has. -/
theorem Unique.addNick (hg : Graph s) (h : Unique m s) {x : Str}
    (hfree : ∀ g a, Known s g → nameOf s g = some a → m.fold a ≠ m.fold x) :
    Unique m (addNick s (newNetworkNick x)) := by
  have new : nameOf (Ctrlproxy.addNick s (newNetworkNick x)) s.next = some x := by
    rw [nameOf]
    exact congrArg (Option.bind · _) (Heap.set_same _ _ _)
  have old : ∀ {g}, Known s g →
      nameOf (Ctrlproxy.addNick s (newNetworkNick x)) g = nameOf s g := by
    intro g hk
    exact nameOf_congr (Heap.set_other (hg.known_lt hk).ne)
  have known : ∀ {g}, Known (Ctrlproxy.addNick s (newNetworkNick x)) g → Known s g ∨ g = s.next := by
    rintro g (rfl | hk)
    · exact .inl (.inl rfl)
    · rcases List.mem_append.mp hk with hk | hk
      · exact .inl (.inr hk)
      · exact .inr (List.mem_singleton.mp hk)
  refine ⟨?_, ?_, h.members⟩
  · intro g hk
    rcases known hk with hk | rfl
    · rw [old hk]
      exact h.named g hk
    · exact ⟨x, new⟩
  · intro g g' a a' hk hk' ha ha' e
    rcases known hk with hk | rfl <;> rcases known hk' with hk' | rfl
    · rw [old hk] at ha
      rw [old hk'] at ha'
      exact h.distinct g g' a a' hk hk' ha ha' e
    · rw [old hk] at ha
      rw [new] at ha'
      cases ha'
      exact absurd e (hfree g a hk ha)
    · rw [old hk'] at ha'
      rw [new] at ha
      cases ha
      exact absurd e.symm (hfree g' a' hk' ha')
    · rfl

/-- A nick may join a channel it is not on. -/
theorem Unique.addMemb (hg : Graph s) (h : Unique m s) {c g : Ref} {ch : ChannelState}
    {gn : NetworkNick} {modes : Modes} (hc : c ∈ s.channels) (hch : s.chanHeap c = some ch)
    (hgn : s.nickHeap g = some gn)
    (habs : ∀ x ∈ ch.nicks, ∀ cn, s.membHeap x = some cn → cn.globalNick ≠ g) :
    Unique m (addMemb s c g ch gn modes) := by
  have hname : ∀ x, nameOf (Ctrlproxy.addMemb s c g ch gn modes) x = nameOf s x :=
    fun x => nameOf_keep rfl hgn (by rfl) x
  have new : (Ctrlproxy.addMemb s c g ch gn modes).membHeap s.next = some
      { modes := modes, globalNick := g, channel := c, lastUpdate := long0, lastFlags := none } :=
    Heap.set_same _ _ _
  have old : ∀ {x}, x ≠ s.next →
      (Ctrlproxy.addMemb s c g ch gn modes).membHeap x = s.membHeap x := fun e => Heap.set_other e
  -- members of a channel of `s` are older than the new membership
  have older : ∀ {c' ch'}, c' ∈ s.channels → s.chanHeap c' = some ch' → ∀ x ∈ ch'.nicks,
      x ≠ s.next := by
    intro c' ch' hc' hch' x hx
    obtain ⟨cn, hcn, -⟩ := hg.to_nick c' hc' ch' hch' x hx
    exact (hg.memb_lt hcn).ne
  refine ⟨fun x hx => ?_, fun x y a a' hx hy ha ha' => ?_, ?_⟩
  · rw [hname]
    exact h.named x hx
  · rw [hname] at ha ha'
    exact h.distinct x y a a' hx hy ha ha'
  · intro c' hc' ch' hch' x hx y hy cn cn' hcn hcn' e
    replace hch' : Heap.set s.chanHeap c _ c' = some ch' := hch'
    rw [Heap.set_apply] at hch'
    split at hch'
    · subst_vars
      cases hch'
      rcases List.mem_append.mp hx with hx | hx <;> rcases List.mem_append.mp hy with hy | hy
      · rw [old (older hc hch x hx)] at hcn
        rw [old (older hc hch y hy)] at hcn'
        exact h.members _ hc ch hch x hx y hy cn cn' hcn hcn' e
      · rw [List.mem_singleton.mp hy, new] at hcn'
        rw [old (older hc hch x hx)] at hcn
        cases hcn'
        exact absurd e (habs x hx cn hcn)
      · rw [List.mem_singleton.mp hx, new] at hcn
        rw [old (older hc hch y hy)] at hcn'
        cases hcn
        exact absurd e.symm (habs y hy cn' hcn')
      · rw [List.mem_singleton.mp hx, List.mem_singleton.mp hy]
    · rw [old (older hc' hch' x hx)] at hcn
      rw [old (older hc' hch' y hy)] at hcn'
      exact h.members c' hc' ch' hch' x hx y hy cn cn' hcn hcn' e

end

/-! ### What the searches answer -/

/-- The test of the searches compares names folded. -/
theorem ircEq_fold (info : Option NetworkInfo) (a b : Str) : ircEq info (some a) (some b) =
    .ok (decide ((casemapOf info).fold a = (casemapOf info).fold b)) := by
  rw [ircEq, irccmp, ok_bind, pure_eq_ok]
  exact congrArg Except.ok (decide_eq_decide.mpr (irccmpStr_eq_zero_iff _ a b))

theorem ircEq_true {info : Option NetworkInfo} {a : Option Str} {y : Str}
    (h : ircEq info a (some y) = .ok true) :
    ∃ x, a = some x ∧ (casemapOf info).fold x = (casemapOf info).fold y := by
  cases a with
  | none => cases h
  | some x =>
      rw [ircEq_fold] at h
      exact ⟨x, rfl, of_decide_eq_true (Except.ok.inj h)⟩

theorem ircEq_false {info : Option NetworkInfo} {a : Option Str} {y : Str}
    (h : ircEq info a (some y) = .ok false) :
    ∃ x, a = some x ∧ (casemapOf info).fold x ≠ (casemapOf info).fold y := by
  cases a with
  | none => cases h
  | some x =>
      rw [ircEq_fold] at h
      exact ⟨x, rfl, of_decide_eq_false (Except.ok.inj h)⟩

/-- A consistent state whose names are unique under its case mapping. -/
structure Named (m : Casemapping) (s : NetworkState) : Prop where
  graph : Graph s
  mapping : casemapOf (some s.info) = m
  unique : Unique m s

theorem Named.quiets {m : Casemapping} {s s' : NetworkState} (h : Named m s) (q : Quiets s s') :
    Named m s' :=
  ⟨q.graph h.graph, q.edits.info_eq ▸ h.mapping, q.unique h.graph h.unique⟩

section
variable {m : Casemapping} {s : NetworkState}

theorem findNetworkNick_some (hm : casemapOf (some s.info) = m) {name : Str} {g : Ref}
    (h : findNetworkNick s name = .ok (some g)) :
    Known s g ∧ ∃ a, nameOf s g = some a ∧ m.fold a = m.fold name := by
  obtain ⟨hmem, hp⟩ := findFirst_some h
  obtain ⟨n, hn, he⟩ := bind_eq_ok hp
  obtain ⟨a, ha, e⟩ := ircEq_true he
  refine ⟨List.mem_cons.mp hmem, a, ?_, hm ▸ e⟩
  rw [nameOf_eq (NetworkState.nick_inv hn), ha]

theorem findNetworkNick_none (hm : casemapOf (some s.info) = m) {name : Str}
    (h : findNetworkNick s name = .ok none) {g : Ref} {a : Str} (hg : Known s g)
    (ha : nameOf s g = some a) : m.fold a ≠ m.fold name := by
  obtain ⟨n, hn, he⟩ := bind_eq_ok (findFirst_none h g (List.mem_cons.mpr hg))
  obtain ⟨b, hb, hne⟩ := ircEq_false he
  rw [nameOf_eq (NetworkState.nick_inv hn), hb] at ha
  cases ha
  exact hm ▸ hne

/-- What `find_channel_nick` does on a channel of the state. -/
theorem findChannelNick_eq (hg : Graph s) {c : Ref} {ch : ChannelState} (hc : c ∈ s.channels)
    (hch : s.chanHeap c = some ch) (name : Str) : findChannelNick s c name =
      findMember s (some s.info) (stripPrefix (some s.info) name) ch.nicks := by
  obtain ⟨ch', hch', hw, -⟩ := hg.chan_live c hc
  rw [hch] at hch'
  cases hch'
  rw [findChannelNick, NetworkState.chan_eq hch, ok_bind, NetworkState.infoFor, hw, if_pos rfl]

theorem findMember_some (hm : casemapOf (some s.info) = m) {name : Str} {l : List Ref} {x : Ref}
    (h : findMember s (some s.info) name l = .ok (some x)) :
    x ∈ l ∧ ∃ cn a, s.membHeap x = some cn ∧ nameOf s cn.globalNick = some a ∧
      m.fold a = m.fold name := by
  obtain ⟨hmem, hp⟩ := findFirst_some h
  obtain ⟨cn, hcn, hp⟩ := bind_eq_ok hp
  obtain ⟨n, hn, he⟩ := bind_eq_ok hp
  obtain ⟨a, ha, e⟩ := ircEq_true he
  refine ⟨hmem, cn, a, NetworkState.memb_inv hcn, ?_, hm ▸ e⟩
  rw [nameOf_eq (NetworkState.nick_inv hn), ha]

theorem findMember_none (hm : casemapOf (some s.info) = m) {name : Str} {l : List Ref}
    (h : findMember s (some s.info) name l = .ok none) {x : Ref} (hx : x ∈ l) :
    ∃ cn a, s.membHeap x = some cn ∧ nameOf s cn.globalNick = some a ∧ m.fold a ≠ m.fold name := by
  obtain ⟨cn, hcn, hp⟩ := bind_eq_ok (findFirst_none h x hx)
  obtain ⟨n, hn, he⟩ := bind_eq_ok hp
  obtain ⟨a, ha, e⟩ := ircEq_false he
  refine ⟨cn, a, NetworkState.memb_inv hcn, ?_, hm ▸ e⟩
  rw [nameOf_eq (NetworkState.nick_inv hn), ha]

/-- What `find_add_network_nick` leaves: the nick it returns has the name it was asked for, and
every other nick is as before. -/
structure FoundNick (m : Casemapping) (s : NetworkState) (name : Str) (r : Ref × NetworkState) :
    Prop where
  named : Named m r.2
  known : Known r.2 r.1
  name : ∃ a, nameOf r.2 r.1 = some a ∧ m.fold a = m.fold name
  others : ∀ g, Known r.2 g → g ≠ r.1 → Known s g ∧ nameOf r.2 g = nameOf s g
  old : ∀ g, Known s g → nameOf r.2 g = nameOf s g
  info : r.2.info = s.info
  channels : r.2.channels = s.channels
  chanHeap : r.2.chanHeap = s.chanHeap
  membHeap : r.2.membHeap = s.membHeap

theorem findAddNetworkNick_named (h : Named m s) (name : Str) :
    Ensures (findAddNetworkNick s name) (FoundNick m s name) (fun _ => True) := by
  refine (findNetworkNick_ensures (fun _ _ => trivial) name).with_eq.bind ?_
  rintro r ⟨hr, -⟩
  cases r with
  | some g =>
      obtain ⟨hk, hname⟩ := findNetworkNick_some h.mapping hr
      exact ⟨h, hk, hname, fun _ hg _ => ⟨hg, rfl⟩, fun _ _ => rfl, rfl, rfl, rfl, rfl⟩
  | none =>
      dsimp only
      split
      · trivial
      have free : ∀ g a, Known s g → nameOf s g = some a → m.fold a ≠ m.fold name :=
        fun g a hg ha => findNetworkNick_none h.mapping hr hg ha
      have old : ∀ g, Known s g → nameOf (addNick s (newNetworkNick name)) g = nameOf s g :=
        fun g hg => nameOf_congr (Heap.set_other (h.graph.known_lt hg).ne)
      have new : nameOf (addNick s (newNetworkNick name)) s.next = some name := by
        rw [nameOf]
        exact congrArg (Option.bind · _) (Heap.set_same _ _ _)
      refine ⟨⟨h.graph.addNick rfl, h.mapping, Unique.addNick h.graph h.unique free⟩, .inr ?_,
        ⟨name, new, rfl⟩, ?_, old, rfl, rfl, rfl, rfl⟩
      · exact List.mem_append_right _ (List.mem_singleton_self _)
      · rintro g (rfl | hg) hne
        · exact ⟨.inl rfl, old _ (.inl rfl)⟩
        · rcases List.mem_append.mp hg with hg | hg
          · exact ⟨.inr hg, old _ (.inr hg)⟩
          · exact absurd (List.mem_singleton.mp hg) hne

/-- A membership as `find_add_channel_nick` returns it: of a nick with the given name. -/
structure FoundMemb (m : Casemapping) (s : NetworkState) (name : Str) (r : Ref × NetworkState) :
    Prop where
  named : Named m r.2
  info : r.2.info = s.info
  channels : r.2.channels = s.channels
  nick : ∃ cn a, r.2.membHeap r.1 = some cn ∧ Known r.2 cn.globalNick ∧
    nameOf r.2 cn.globalNick = some a ∧ m.fold a = m.fold name

theorem addChannelNick_named (h : Named m s) {c : Ref} {ch : ChannelState} (hc : c ∈ s.channels)
    (hch : s.chanHeap c = some ch) {name : Str}
    (habs : findMember s (some s.info) name ch.nicks = .ok none) (p : Option Byte) :
    Ensures (addChannelNick s c name p) (FoundMemb m s name) (fun _ => True) := by
  refine (findAddNetworkNick_named h name).bind ?_
  rintro ⟨g, s₁⟩ hf
  have hp : p = none ∨ p = p.toList.head? := by cases p <;> simp
  refine (prefixModes_ensures hp fun _ => trivial).bind fun modes _ => ?_
  refine (NetworkState.chan_ensures (fun _ _ => trivial) c).bind fun ch₁ hch₁ => ?_
  refine (NetworkState.nick_ensures (fun _ _ => trivial) g).bind fun gn hgn => ?_
  have hc₁ : c ∈ s₁.channels := hf.channels ▸ hc
  have hch₁' : s.chanHeap c = some ch₁ := hf.chanHeap ▸ hch₁
  rw [hch] at hch₁'
  cases hch₁'
  -- no member has the name, so none is the nick that has it
  have new : ∀ x ∈ ch.nicks, ∀ cn, s₁.membHeap x = some cn → cn.globalNick ≠ g := by
    rintro x hx cn hcn rfl
    obtain ⟨cn', a, hcn', ha, hne⟩ := findMember_none h.mapping habs hx
    replace hcn : s.membHeap x = some cn := hf.membHeap ▸ hcn
    rw [hcn'] at hcn
    cases hcn
    obtain ⟨cn'', hcn'', -, hk, -⟩ := h.graph.to_nick c hc ch hch x hx
    rw [hcn'] at hcn''
    cases hcn''
    obtain ⟨b, hb, e⟩ := hf.name
    rw [hf.old _ hk, ha] at hb
    cases hb
    exact hne e
  have hu : Unique m (addMemb s₁ c g ch gn modes) :=
    Unique.addMemb hf.named.graph hf.named.unique hc₁ hch₁ hgn new
  refine ⟨⟨hf.named.graph.addMemb hc₁ hf.known hch₁ hgn, hf.named.mapping, hu⟩, hf.info,
    hf.channels, ?_⟩
  obtain ⟨a, ha, e⟩ := hf.name
  refine ⟨_, a, Heap.set_same _ _ _, hf.known, ?_, e⟩
  exact (nameOf_keep rfl hgn (by rfl) g).trans ha

theorem stripPrefix_of_not {info : Option NetworkInfo} {name : Str}
    (h : isPrefix name.head? info = false) : stripPrefix info name = name := by
  rw [stripPrefix, h]
  rfl

theorem findAddChannelNick_named (h : Named m s) {c : Ref} (hc : c ∈ s.channels) {name : Str}
    (hp : isPrefix (stripPrefix (some s.info) name).head? (some s.info) = false) :
    Ensures (findAddChannelNick s c name) (FoundMemb m s (stripPrefix (some s.info) name))
      (fun _ => True) := by
  unfold findAddChannelNick
  split
  · trivial
  refine (NetworkState.chan_ensures (fun _ _ => trivial) c).bind fun ch hch => ?_
  split
  · trivial
  have hfind := findChannelNick_eq h.graph hc hch (stripPrefix (some s.info) name)
  rw [stripPrefix_of_not hp] at hfind
  refine (findChannelNick_ensures (fun _ _ => trivial) c _).with_eq.bind ?_
  rintro r ⟨hr, hmem⟩
  rw [hfind] at hr
  cases r with
  | none => exact addChannelNick_named h hc hch hr _
  | some x =>
      obtain ⟨hx, cn, a, hcn, ha, e⟩ := findMember_some h.mapping hr
      obtain ⟨cn', gn, hl, -⟩ := h.graph.link_of_chan hc hch hx
      have : cn' = cn := Option.some.inj (hl.memb.symm.trans hcn)
      subst this
      exact ⟨h, rfl, rfl, cn', a, hcn, hl.known, ha, e⟩

/-- The name of a known nick is replaced by one that is the same up to case. -/
theorem Named.setName_fold (h : Named m s) {r : Ref} {n n' : NetworkNick} {a x : Str}
    (hr : Known s r) (hn : s.nickHeap r = some n) (ha : nameOf s r = some a)
    (hx : n'.nick = some x) (e : m.fold a = m.fold x) (hc : n'.channelNicks = n.channelNicks)
    (hq : n.query = true → n'.query = true) : Named m (s.setNick r n') :=
  ⟨h.graph.setNick hn hc hq, h.mapping, h.unique.setName_fold hr ha hx e⟩

/-! ### Lines that name nicks -/

theorem splitHostmask_nick {hm : Str} (h : chr '!' ∈ hm) :
    (splitHostmask hm).1 = some (hm.takeWhile (· ≠ chr '!')) := by
  unfold splitHostmask
  split
  · rename_i hnil
    have := List.dropWhile_eq_nil_iff.mp hnil _ h
    simp at this
  · dsimp only
    split <;> rfl

/-- A hostmask that begins with the name a nick has, up to case, leaves it that name. -/
theorem Named.setHostmask (h : Named m s) {r : Ref} {n : NetworkNick} {a hm : Str}
    (hr : Known s r) (hn : s.nickHeap r = some n) (ha : nameOf s r = some a)
    (hbang : chr '!' ∈ hm) (e : m.fold a = m.fold (hm.takeWhile (· ≠ chr '!'))) :
    Named m (s.setNick r (networkNickSetHostmask n hm)) := by
  rw [nameOf_eq hn] at ha
  by_cases hsame : n.hostmask = some hm
  · have keep : networkNickSetHostmask n hm = n := by rw [networkNickSetHostmask, if_pos hsame]
    rw [keep]
    exact h.setName_fold hr hn ((nameOf_eq hn).trans ha) ha rfl rfl id
  · refine h.setName_fold hr hn ((nameOf_eq hn).trans ha) ?_ e (by simp) (by simp)
    rw [networkNickSetHostmask, if_neg hsame]
    exact splitHostmask_nick hbang

theorem joinChannel_named (h : Named m s) {origin : Str} (hbang : chr '!' ∈ origin)
    (hp : isPrefix (origin.takeWhile (· ≠ chr '!')).head? (some s.info) = false) (name : Str) :
    Ensures (joinChannel origin (origin.takeWhile (· ≠ chr '!')) s name)
      (fun s' => Named m s' ∧ s'.info = s.info) (fun _ => True) := by
  refine (findAddChannel_silent (fun _ _ => trivial) name).bind ?_
  rintro ⟨c, s₁⟩ ⟨e₁, hc⟩
  have hi : s₁.info = s.info := e₁.edits.info_eq
  have h₁ : Named m s₁ := h.quiets e₁.quiets
  have hstrip : stripPrefix (some s₁.info) (origin.takeWhile (· ≠ chr '!')) =
      origin.takeWhile (· ≠ chr '!') := stripPrefix_of_not (hi ▸ hp)
  refine (findAddChannelNick_named h₁ hc (by rw [hstrip, hi]; exact hp)).bind ?_
  rintro ⟨x, s₂⟩ hf
  obtain ⟨cn, a, hcn, hk, ha, e⟩ := hf.nick
  rw [hstrip] at e
  refine (NetworkState.memb_ensures (fun _ _ => trivial) x).bind fun cn' hcn' => ?_
  obtain rfl : cn = cn' := Option.some.inj (hcn.symm.trans hcn')
  refine (NetworkState.modifyNick_ensures (fun _ _ => trivial) _ _).bind ?_
  rintro _ ⟨n, hn, rfl⟩
  refine (NetworkState.nick_ensures (fun _ _ => trivial) _).bind fun me _ => ?_
  refine (irccmp_ensures (fun _ _ => trivial) _ _ _).bind fun _ _ => ?_
  exact ⟨hf.named.setHostmask hk hn ha hbang e, hf.info.trans hi⟩

variable {l : IrcLine}

/-- The condition on the origin of a JOIN line. -/
def JoinSafe (s : NetworkState) (l : IrcLine) : Prop :=
  ∀ o, l.origin = some o → chr '!' ∈ o ∧
    isPrefix (o.takeWhile (· ≠ chr '!')).head? (some s.info) = false

theorem handleJoin_named (h : Named m s) (hsafe : JoinSafe s l) :
    Ensures (handleJoin s l) (Named m) (fun _ => True) := by
  unfold handleJoin
  split
  · exact h
  rename_i o ho
  refine (lineGetNick_ensures (fun _ _ => trivial)).bind ?_
  rintro nick ⟨o', ho', rfl⟩
  rw [ho] at ho'
  cases ho'
  obtain ⟨hbang, hp⟩ := hsafe o ho
  refine (IrcLine.argStr_ensures (fun _ _ => trivial) 1).bind fun channels _ => ?_
  have loop := Ensures.foldlM (f := joinChannel o (o.takeWhile (· ≠ chr '!')))
    (l := gStrsplit channels (chr ',')) (b := s) (I := fun s' => Named m s' ∧ s'.info = s.info)
    (E := fun _ => True) ?_ ⟨h, rfl⟩
  · exact loop.imp fun _ => And.left
  rintro s' name - ⟨h', hi⟩
  exact (joinChannel_named h' hbang (hi ▸ hp) name).imp fun _ hs => ⟨hs.1, hs.2.trans hi⟩

/-- The condition on the name a NICK line gives: a known nick that has it is the one that the line
renames. -/
def RenameSafe (m : Casemapping) (s : NetworkState) (l : IrcLine) : Prop :=
  ∀ o x, l.origin = some o → l.args[1]? = some x → ∀ g a, Known s g → nameOf s g = some a →
    m.fold a = m.fold x → m.fold a = m.fold (o.takeWhile (· ≠ chr '!'))

theorem handleNick_named (h : Named m s) (hsafe : RenameSafe m s l) :
    Ensures (handleNick s l) (Named m) (fun _ => True) := by
  unfold handleNick
  split
  · exact h
  refine (lineGetNick_ensures (fun _ _ => trivial)).bind ?_
  rintro nick ⟨o, ho, rfl⟩
  refine (findAddNetworkNick_named h _).bind ?_
  rintro ⟨g, s₁⟩ hf
  refine (IrcLine.argStr_ensures (fun _ _ => trivial) 1).bind fun x hx => ?_
  refine (NetworkState.modifyNick_ensures (fun _ _ => trivial) _ _).imp ?_
  rintro _ ⟨n, hn, rfl⟩
  have hnick : (networkNickSetNick n x).nick = some x := by
    unfold networkNickSetNick
    split
    · assumption
    · rfl
  refine ⟨hf.named.graph.setNick hn (by simp) (by simp), hf.named.mapping,
    hf.named.unique.setName hnick ?_⟩
  intro g' a hg' hne ha e
  obtain ⟨hk, hold⟩ := hf.others g' hg' hne
  obtain ⟨b, hb, hfold⟩ := hf.name
  have hsame := hsafe o x ho hx g' a hk (hold ▸ ha) e
  exact hne (hf.named.unique.distinct g' g a b hg' hf.known ha hb (hsame.trans hfold.symm))

theorem handlePrivmsg_named (h : Named m s) :
    Ensures (handlePrivmsg s l) (Named m) (fun _ => True) := by
  unfold handlePrivmsg
  split
  · exact h
  refine (IrcLine.argStr_ensures (fun _ _ => trivial) 1).bind fun target _ => ?_
  refine (NetworkState.nick_ensures (fun _ _ => trivial) _).bind fun me _ => ?_
  refine (ircEq_ensures (fun _ _ => trivial) _ _ _).bind fun b _ => ?_
  split
  · refine (lineGetNick_ensures (fun _ _ => trivial)).bind fun nick _ => ?_
    refine (findAddNetworkNick_named h nick).bind ?_
    rintro ⟨g, s₁⟩ hf
    refine (NetworkState.modifyNick_ensures (fun _ _ => trivial) _ _).imp ?_
    rintro _ ⟨n, hn, rfl⟩
    exact hf.named.quiets (.single (.nick hn (.query n)))
  · exact h

theorem handleMode_named (h : Named m s) (now : Long) :
    Ensures (handleMode now s l) (Named m) (fun _ => True) := by
  refine (IrcLine.argStr_ensures (fun _ _ => trivial) 1).bind fun target _ => ?_
  refine (IrcLine.argStr_ensures (fun _ _ => trivial) 2).bind fun change _ => ?_
  refine (isChannelname_ensures (fun _ _ => trivial) target s.info).bind fun b _ => ?_
  split
  · refine (findChannel_ensures (fun _ _ => trivial) target).bind fun r _ => ?_
    cases r with
    | none => exact h
    | some c =>
        refine (lineGetNick_ensures (fun _ _ => trivial)).bind fun byName _ => ?_
        refine (findNetworkNick_ensures (fun _ _ => trivial) byName).bind fun by' _ => ?_
        refine (channelModeLoop_silent (fun _ _ => trivial) (fun _ _ => trivial) now by' c
          true 3).imp fun s' q => ?_
        exact h.quiets q.quiets
  · refine (findAddNetworkNick_named h target).bind ?_
    rintro ⟨g, s₁⟩ hf
    refine (NetworkState.nick_ensures (fun _ _ => trivial) g).bind fun n hn => ?_
    refine (changeModes_ensures (fun _ => trivial) true n.modes).bind fun modes hm => ?_
    exact hf.named.quiets (.single (.nick hn (.modes n hm)))

/-- The condition on the nicks of a 302 line. -/
def UserhostSafe (l : IrcLine) : Prop :=
  ∀ w, l.args[2]? = some w → ∀ user ∈ gStrsplit (gStrstrip w) (chr ' '),
    ∀ nick rest tl, gStrsplitN user (chr '=') 2 = nick :: rest :: tl → chr '!' ∉ nick

theorem takeWhile_bang {nick uh : Str} (h : chr '!' ∉ nick) :
    (nick ++ chr '!' :: uh).takeWhile (· ≠ chr '!') = nick := by
  rw [List.takeWhile_append_of_pos]
  · simp
  · intro b hb
    simp only [decide_eq_true_eq]
    rintro rfl
    exact h hb

theorem userhost_named (h : Named m s) {user : Str}
    (hsafe : ∀ nick rest tl, gStrsplitN user (chr '=') 2 = nick :: rest :: tl → chr '!' ∉ nick) :
    Ensures (userhost s user) (Named m) (fun _ => True) := by
  unfold userhost
  split
  · rename_i nick rest tl hsplit
    refine (findAddNetworkNick_named h nick).bind ?_
    rintro ⟨g, s₁⟩ hf
    cases rest with
    | nil => trivial
    | cons b uh =>
        refine (NetworkState.modifyNick_ensures (fun _ _ => trivial) _ _).imp ?_
        rintro _ ⟨n, hn, rfl⟩
        obtain ⟨a, ha, e⟩ := hf.name
        refine hf.named.setHostmask hf.known hn ha (by simp) ?_
        rw [takeWhile_bang (hsafe nick _ tl hsplit)]
        exact e
  · exact h

theorem handle302_named (h : Named m s) (hsafe : UserhostSafe l) :
    Ensures (handle302 s l) (Named m) (fun _ => True) := by
  refine (IrcLine.argStr_ensures (fun _ _ => trivial) 2).bind fun users husers => ?_
  refine Ensures.foldlM (fun s' user huser h' => ?_) h
  exact userhost_named h' (hsafe users husers user huser)

/-- The condition on the names of a 353 line: one prefix character is the only one. -/
def NamesSafe (s : NetworkState) (l : IrcLine) : Prop :=
  ∀ w, l.args[4]? = some w → ∀ name ∈ gStrsplit w (chr ' '),
    isPrefix (stripPrefix (some s.info) name).head? (some s.info) = false

theorem handleNamreply_named (h : Named m s) (hsafe : NamesSafe s l) :
    Ensures (handleNamreply s l) (Named m) (fun _ => True) := by
  refine (IrcLine.argStr_ensures (fun _ _ => trivial) 3).bind fun chan hchan => ?_
  refine (findChannel_ensures (fun _ _ => trivial) chan).bind fun r hr => ?_
  cases r with
  | none => exact h
  | some c =>
      refine (IrcLine.argStr_ensures (fun _ _ => trivial) 4).bind fun names hnames => ?_
      refine (IrcLine.argStr_ensures (fun _ _ => trivial) 2).bind fun mode _ => ?_
      have hmode : KeepsChannel fun ch => { ch with mode := mode.head? } :=
        ⟨fun _ => rfl, fun _ => rfl, fun _ => rfl, fun _ => KeepsNul.refl _⟩
      refine (modifyChan_silent (fun _ _ => trivial) c hmode).bind ?_
      rintro s₁ ⟨e₁, hcs₁⟩
      refine (restartNames_silent (fun _ _ => trivial) (e₁.graph h.graph)
        (hcs₁ ▸ hr c rfl)).bind ?_
      rintro s₂ ⟨e₂, hcs₂⟩
      have q : Quiets s s₂ := (e₁.trans e₂).quiets
      have h₂ : Named m s₂ := h.quiets q
      have hc₂ : c ∈ s₂.channels := hcs₂ ▸ hcs₁ ▸ hr c rfl
      have loop := Ensures.foldlM (f := addName c) (l := gStrsplit names (chr ' ')) (b := s₂)
        (I := fun s' => Named m s' ∧ s'.channels = s₂.channels ∧ s'.info = s.info)
        (E := fun _ => True) ?_ ⟨h₂, rfl, q.edits.info_eq⟩
      · exact loop.imp fun _ => And.left
      rintro s' name hname ⟨h', hcs, hi⟩
      unfold addName
      split
      · exact ⟨h', hcs, hi⟩
      have hp := hsafe names hnames name hname
      rw [← hi] at hp
      refine (findAddChannelNick_named h' (hcs ▸ hc₂) hp).bind ?_
      rintro ⟨x, s''⟩ hf
      exact ⟨hf.named, hf.channels.trans hcs, hf.info.trans hi⟩

theorem handleWhoreply_named (h : Named m s) (now : Long) :
    Ensures (handleWhoreply now s l) (Named m) (fun _ => True) := by
  refine (IrcLine.argStr_ensures (fun _ _ => trivial) 6).bind fun nick _ => ?_
  refine (findAddNetworkNick_named h nick).bind ?_
  rintro ⟨g, s₁⟩ hf
  refine (IrcLine.argStr_ensures (fun _ _ => trivial) 3).bind fun username _ => ?_
  refine (IrcLine.argStr_ensures (fun _ _ => trivial) 4).bind fun host _ => ?_
  refine (NetworkState.modifyNick_ensures (fun _ _ => trivial) _ _).bind ?_
  rintro _ ⟨n, hn, rfl⟩
  obtain ⟨a, ha, e⟩ := hf.name
  have h₂ : Named m (s₁.setNick g (networkNickSetData n nick username host)) :=
    hf.named.setName_fold hf.known hn ha rfl e (by simp) (by simp)
  refine (IrcLine.argStr_ensures (fun _ _ => trivial) 8).bind fun trailing _ => ?_
  refine (IrcLine.argStr_ensures (fun _ _ => trivial) 5).bind fun server _ => ?_
  refine (NetworkState.modifyNick_ensures (fun _ _ => trivial) _ _).bind ?_
  rintro _ ⟨n', hn', rfl⟩
  have h₃ := h₂.quiets (.single (.nick hn'
    (.who n' (toInt (strtol trailing 10).1) (strtol trailing 10).2 server)))
  refine (IrcLine.argStr_ensures (fun _ _ => trivial) 2).bind fun name _ => ?_
  refine (findChannel_ensures (fun _ _ => trivial) name).bind fun r _ => ?_
  cases r with
  | none => exact h₃
  | some c =>
      refine (NetworkState.nick_ensures (fun _ _ => trivial) g).bind fun n'' _ => ?_
      split
      · trivial
      refine (findChannelNick_ensures (fun _ _ => trivial) c _).bind fun x _ => ?_
      cases x with
      | none => exact h₃
      | some x =>
          refine (NetworkState.memb_ensures (fun _ _ => trivial) x).bind fun cn hcn => ?_
          refine (IrcLine.arg_ensures (fun _ _ => trivial) 7).bind fun flags _ => ?_
          exact h₃.quiets (.single (.memb hcn rfl rfl (KeepsNul.refl _)))

/-- The condition on the name a 001 line gives the user: no other known nick has it. -/
def WelcomeSafe (m : Casemapping) (s : NetworkState) (l : IrcLine) : Prop :=
  ∀ x, l.args[1]? = some x → ∀ g ∈ s.nicks, ∀ a, nameOf s g = some a → m.fold a ≠ m.fold x

theorem handle001_named (h : Named m s) (hk : commandOf l = some .c001)
    (hsafe : WelcomeSafe m s l) : Ensures (handle001 s l) (Named m) (fun _ => True) := by
  have hlt : 1 < l.argc := commandOf_argc hk
  obtain ⟨x, hx⟩ : ∃ x, l.args[1]? = some x := ⟨_, List.getElem?_eq_getElem hlt⟩
  unfold handle001 IrcLine.arg
  rw [if_pos hlt.le, hx]
  refine (NetworkState.modifyNick_ensures (fun _ _ => trivial) _ _).imp ?_
  rintro _ ⟨n, hn, rfl⟩
  refine ⟨h.graph.setNick hn rfl id, h.mapping, h.unique.setName rfl fun g a hg hne ha => ?_⟩
  exact hsafe x hx g (hg.resolve_left hne) a ha

/-! ### Runs -/

/-- Two names are the same for `irccmp`. -/
def SameNick (s : NetworkState) (a b : Str) : Prop :=
  irccmp (some s.info) (some a) (some b) = .ok 0

theorem sameNick_iff {a b : Str} :
    SameNick s a b ↔ (casemapOf (some s.info)).fold a = (casemapOf (some s.info)).fold b := by
  rw [← irccmpStr_eq_zero_iff, SameNick, irccmp]
  exact ⟨Except.ok.inj, congrArg _⟩

/-- The line does not give one nick the name of another, and does not take a name away. -/
structure NickSafe (s : NetworkState) (l : IrcLine) : Prop where
  /-- The origin of a JOIN has a `!`, and no prefix character in front. -/
  join : commandOf l = some .join → JoinSafe s l
  /-- The name a NICK gives is free, or is that of the renamed nick. -/
  nick : commandOf l = some .nick → ∀ o x, l.origin = some o → l.args[1]? = some x →
    ∀ g a, Known s g → nameOf s g = some a → SameNick s a x →
      SameNick s a (o.takeWhile (· ≠ chr '!'))
  /-- The name a 001 gives is no other nick's. -/
  welcome : commandOf l = some .c001 → ∀ x, l.args[1]? = some x → ∀ g ∈ s.nicks,
    ∀ a, nameOf s g = some a → ¬ SameNick s a x
  /-- The nicks of a 302 have no `!`. -/
  userhost : commandOf l = some .c302 → UserhostSafe l
  /-- The names of a 353 have one prefix character at most. -/
  namreply : commandOf l = some .namreply → NamesSafe s l

theorem handler_named (h : Named m s) {k : Command} (hk : commandOf l = some k)
    (hsafe : NickSafe s l) (now : Long) :
    Ensures (k.handler now s l)
      (fun s' => casemapOf (some s'.info) = casemapOf (some s.info) → Named m s')
      (fun _ => True) := by
  cases hq : k.isQuiet with
  | true =>
      exact (handler_silent h.graph hk hq now).mono (fun _ q _ => h.quiets q.quiets) fun _ _ => trivial
  | false =>
      have fold_iff : ∀ {a b}, SameNick s a b ↔ m.fold a = m.fold b := by
        intro a b
        rw [sameNick_iff, h.mapping]
      have announce : ∀ s', (∃ i, s' = { s with info := i }) →
          casemapOf (some s'.info) = casemapOf (some s.info) → Named m s' := by
        rintro _ ⟨i, rfl⟩ e
        exact ⟨h.graph.announce i, e.trans h.mapping, h.unique.named, h.unique.distinct,
          h.unique.members⟩
      cases k with
      | join => exact (handleJoin_named h (hsafe.join hk)).imp fun _ h' _ => h'
      | nick =>
          refine (handleNick_named h fun o x ho hx g a hg ha e => ?_).imp fun _ h' _ => h'
          exact fold_iff.mp (hsafe.nick hk o x ho hx g a hg ha (fold_iff.mpr e))
      | privmsg => exact (handlePrivmsg_named h).imp fun _ h' _ => h'
      | mode => exact (handleMode_named h now).imp fun _ h' _ => h'
      | c001 =>
          refine (handle001_named h hk fun x hx g hg a ha e => ?_).imp fun _ h' _ => h'
          exact hsafe.welcome hk x hx g hg a ha (fold_iff.mpr e)
      | c004 => exact (handle004_info (fun _ _ => trivial)).imp announce
      | c005 => exact (handle005_info (fun _ _ => trivial)).imp announce
      | c302 => exact (handle302_named h (hsafe.userhost hk)).imp fun _ h' _ => h'
      | namreply => exact (handleNamreply_named h (hsafe.namreply hk)).imp fun _ h' _ => h'
      | whoreply => exact (handleWhoreply_named h now).imp fun _ h' _ => h'
      | _ => cases hq

/-- The line leaves the case mapping as it is. -/
def MappingKept (s : NetworkState) (i : Input) : Prop :=
  ∀ s', stateStep s i = .ok s' → s'.info.casemapping = s.info.casemapping

theorem stateStep_named (h : Named m s) {i : Input} (hm : MappingKept s i)
    (hsafe : NickSafe s i.2) : Ensures (stateStep s i) (Named m) (fun _ => True) := by
  cases hk : commandOf i.2 with
  | none => exact ensures_of_eq_ok (stateStep_none hk) h
  | some k =>
      have hx := (handler_named h hk hsafe i.1).with_eq
      rw [← stateStep_handler hk] at hx
      exact hx.imp fun s' hs' => hs'.2 (hm s' hs'.1)

end

/-- Every nick has a name, no two have the same, and no channel lists one twice. -/
structure NicksUnique (s : NetworkState) : Prop where
  named : ∀ g, g = meRef ∨ g ∈ s.nicks → ∃ n a, s.nickHeap g = some n ∧ n.nick = some a
  distinct : ∀ g g', g = meRef ∨ g ∈ s.nicks → g' = meRef ∨ g' ∈ s.nicks →
    ∀ n n', s.nickHeap g = some n → s.nickHeap g' = some n' →
      irccmp (some s.info) n.nick n'.nick = .ok 0 → g = g'
  members : ∀ c ∈ s.channels, ∀ ch, s.chanHeap c = some ch → ∀ x ∈ ch.nicks, ∀ y ∈ ch.nicks,
    ∀ cn cn', s.membHeap x = some cn → s.membHeap y = some cn' →
      cn.globalNick = cn'.globalNick → x = y

theorem Named.nicksUnique {m : Casemapping} {s : NetworkState} (h : Named m s) : NicksUnique s where
  named := by
    intro g hg
    obtain ⟨a, ha⟩ := h.unique.named g hg
    obtain ⟨n, hn, -⟩ := h.graph.nick_live g hg
    exact ⟨n, a, hn, (nameOf_eq hn).symm.trans ha⟩
  distinct := by
    intro g g' hg hg' n n' hn hn' e
    obtain ⟨a, ha⟩ := h.unique.named g hg
    obtain ⟨a', ha'⟩ := h.unique.named g' hg'
    rw [← nameOf_eq hn, ← nameOf_eq hn', ha, ha'] at e
    have hsame := sameNick_iff.mp e
    rw [h.mapping] at hsame
    exact h.unique.distinct g g' a a' hg hg' ha ha' hsame
  members := h.unique.members

theorem networkStateInit_named (nick username hostname : Str) :
    Named .unknown (networkStateInit nick username hostname) where
  graph := networkStateInit_graph _ _ _
  mapping := rfl
  unique := by
    refine ⟨?_, ?_, ?_⟩
    · rintro g (rfl | hg)
      · exact ⟨nick, rfl⟩
      · cases hg
    · rintro g g' a a' (rfl | hg) (rfl | hg') _ _ _
      · rfl
      all_goals first | cases hg | cases hg'
    · intro c hc
      cases hc

/-- **Names are unique** in every state reached, under one case mapping, by lines that neither
hand a name in use to another nick nor take a name away. -/
theorem reachable_nicksUnique {nick username hostname : Str} {s : NetworkState}
    (h : Reach stateStep (fun s i => MappingKept s i ∧ NickSafe s i.2)
      (networkStateInit nick username hostname) s) : NicksUnique s := by
  have inv : ∃ m, Named m s :=
    h.invariant (I := fun s => ∃ m, Named m s) ⟨_, networkStateInit_named _ _ _⟩ ?_
  · obtain ⟨m, hm⟩ := inv
    exact hm.nicksUnique
  · rintro s i ⟨m, hm⟩ ⟨hmap, hsafe⟩
    exact (stateStep_named hm hmap hsafe).imp fun _ h' => ⟨m, h'⟩

theorem reachable_nicksUnique_join : ∃ s,
    Reach stateStep (fun s i => MappingKept s i ∧ NickSafe s i.2)
      (networkStateInit (str "me") (str "user") (str "host")) s ∧
    s.nicks.length = 1 ∧ NicksUnique s := by
  let s₀ := networkStateInit (str "me") (str "user") (str "host")
  let i := inputOf ":joe!u@h JOIN #c"
  have run : (stateStep s₀ i).map (fun s => (s.nicks.length, s.info.casemapping)) =
      .ok (1, .unknown) := by decide +kernel
  obtain ⟨s, hs, hr⟩ := map_eq_ok run
  have hk : commandOf i.2 = some .join := by decide +kernel
  have horigin : i.2.origin = some (str "joe!u@h") := by decide +kernel
  have hmap : MappingKept s₀ i := by
    intro s' hs'
    cases hs.symm.trans hs'
    exact congrArg Prod.snd hr
  have hsafe : NickSafe s₀ i.2 := by
    refine ⟨fun _ o ho => ?_, ?_, ?_, ?_, ?_⟩
    · rw [horigin] at ho
      cases ho
      exact ⟨by decide +kernel, by decide +kernel⟩
    all_goals
      rw [hk]
      exact fun e => by cases e
  have hreach : Reach stateStep (fun s i => MappingKept s i ∧ NickSafe s i.2) s₀ s :=
    .step .refl ⟨hmap, hsafe⟩ hs
  exact ⟨s, hreach, congrArg Prod.fst hr, reachable_nicksUnique hreach⟩

/-- A NICK line to the user's own name makes two nicks of that name. -/
theorem nicks_not_unique_after_nick : ¬ ∀ (nick username hostname : Str) (s : NetworkState),
    Reach stateStep MappingKept (networkStateInit nick username hostname) s → NicksUnique s := by
  intro claim
  let s₀ := networkStateInit (str "me") (str "user") (str "host")
  let i := inputOf ":joe!u@h NICK :me"
  have run : (stateStep s₀ i).map (fun s => decide (s.info.casemapping = .unknown ∧
      s.nicks = [1] ∧ nameOf s meRef = some (str "me") ∧ nameOf s 1 = some (str "me"))) =
      .ok true := by decide +kernel
  obtain ⟨s, hs, hr⟩ := map_eq_ok run
  obtain ⟨hmap, hnicks, hme, hjoe⟩ := of_decide_eq_true hr
  have hkept : MappingKept s₀ i := by
    intro s' hs'
    cases hs.symm.trans hs'
    exact hmap
  have hu := claim _ _ _ s (.step .refl hkept hs)
  have hone : (1 : Ref) ∈ s.nicks := by rw [hnicks]; exact List.mem_singleton_self 1
  obtain ⟨n, hn, hname⟩ := Option.bind_eq_some_iff.mp hme
  obtain ⟨n', hn', hname'⟩ := Option.bind_eq_some_iff.mp hjoe
  have same : irccmp (some s.info) n.nick n'.nick = .ok 0 := by
    rw [hname, hname']
    exact sameNick_iff.mpr rfl
  exact absurd (hu.distinct meRef 1 (.inl rfl) (.inr hone) n n' hn hn' same) (by decide)

end Ctrlproxy
