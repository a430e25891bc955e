import Mathlib.Data.List.Nodup
import Ctrlproxy.State.Handlers

/-!
# State — what a transition can do to the objects

Every handler changes a state by a finite sequence of *edits* (`Edit`): it changes fields of one
object, adds a nick, a channel or a membership, takes a membership out of the two lists it is in,
or drops an object whose list is empty.  An invariant of the object graph is proved once, for an
edit, and holds of every handler (`State/Steps.lean`).

`Graph s` is the two-way membership graph: a membership is in the list of its channel exactly
when it is in the list of its nick.
-/

namespace Ctrlproxy
open Outcome

/-! ### The membership graph -/

/-- The nick at `g` is the user's own or in `s->nicks`. -/
def Known (s : NetworkState) (g : Ref) : Prop := g = meRef ∨ g ∈ s.nicks

/-- The membership graph is consistent. -/
structure Graph (s : NetworkState) : Prop where
  nicks_nodup : s.nicks.Nodup
  channels_nodup : s.channels.Nodup
  me_not_listed : meRef ∉ s.nicks
  me_query : ∀ n, s.nickHeap meRef = some n → n.query = true
  chan_live : ∀ c ∈ s.channels, ∃ ch, s.chanHeap c = some ch ∧ ch.network = true ∧ ch.nicks.Nodup
  nick_live : ∀ g, Known s g → ∃ gn, s.nickHeap g = some gn ∧ gn.channelNicks.Nodup
  to_nick : ∀ c ∈ s.channels, ∀ ch, s.chanHeap c = some ch → ∀ m ∈ ch.nicks,
    ∃ cn, s.membHeap m = some cn ∧ cn.channel = c ∧ Known s cn.globalNick ∧
      ∀ gn, s.nickHeap cn.globalNick = some gn → m ∈ gn.channelNicks
  to_chan : ∀ g, Known s g → ∀ gn, s.nickHeap g = some gn → ∀ m ∈ gn.channelNicks,
    ∃ cn, s.membHeap m = some cn ∧ cn.globalNick = g ∧ cn.channel ∈ s.channels ∧
      ∀ ch, s.chanHeap cn.channel = some ch → m ∈ ch.nicks
  fresh : ∀ r, s.next ≤ r → s.nickHeap r = none ∧ s.chanHeap r = none ∧ s.membHeap r = none

/-- The addresses in the lists were handed out. -/
theorem Graph.known_lt {s : NetworkState} (h : Graph s) {g : Ref} (hg : Known s g) : g < s.next := by
  by_contra hlt
  obtain ⟨gn, hgn, -⟩ := h.nick_live g hg
  rw [(h.fresh g (not_lt.mp hlt)).1] at hgn
  cases hgn

theorem Graph.channel_lt {s : NetworkState} (h : Graph s) {c : Ref} (hc : c ∈ s.channels) :
    c < s.next := by
  by_contra hlt
  obtain ⟨ch, hch, -⟩ := h.chan_live c hc
  rw [(h.fresh c (not_lt.mp hlt)).2.1] at hch
  cases hch

theorem Graph.memb_lt {s : NetworkState} (h : Graph s) {m : Ref} {cn : ChannelNick}
    (hm : s.membHeap m = some cn) : m < s.next := by
  by_contra hlt
  rw [(h.fresh m (not_lt.mp hlt)).2.2] at hm
  cases hm

/-! ### Edits -/

/-- Slot 0 of a mode set is not newly set: no mode character is the terminator. -/
def KeepsNul (old new : Modes) : Prop :=
  new ⟨0, maxmodes_pos⟩ = true → old ⟨0, maxmodes_pos⟩ = true

theorem KeepsNul.refl (m : Modes) : KeepsNul m m := id

/-- The changes of one nick that leave its name alone. -/
inductive AttrEdit : NetworkNick → NetworkNick → Prop where
  | query (n : NetworkNick) : AttrEdit n { n with query := true }
  | who (n : NetworkNick) (hops : ℤ) (rest server : Str) :
      AttrEdit n (whoreplyNick hops rest server n)
  | modes (n : NetworkNick) {m : Modes} : KeepsNul n.modes m → AttrEdit n { n with modes := m }

/-- The changes of one nick that may name it anew. -/
inductive NameEdit : NetworkNick → NetworkNick → Prop where
  | data (n : NetworkNick) (nick username host : Str) :
      NameEdit n (networkNickSetData n nick username host)
  | nick (n : NetworkNick) (nick : Str) : NameEdit n (networkNickSetNick n nick)
  | hostmask (n : NetworkNick) (hm : Str) : NameEdit n (networkNickSetHostmask n hm)

/-- The state without a membership: it is out of the lists of its channel and its nick. -/
def unlink (s : NetworkState) (m : Ref) (cn : ChannelNick) (ch : ChannelState)
    (gn : NetworkNick) : NetworkState :=
  { s with
    chanHeap := s.chanHeap.set cn.channel { ch with nicks := ch.nicks.erase m }
    nickHeap := s.nickHeap.set cn.globalNick { gn with channelNicks := gn.channelNicks.erase m }
    membHeap := s.membHeap.del m }

/-- The state without a nick. -/
def dropNick (s : NetworkState) (g : Ref) : NetworkState :=
  { s with nicks := s.nicks.erase g, nickHeap := s.nickHeap.del g }

/-- The state without a channel. -/
def dropChan (s : NetworkState) (c : Ref) : NetworkState :=
  { s with channels := s.channels.erase c, chanHeap := s.chanHeap.del c }

/-- One change of a state that a destructor makes. -/
inductive Trim : NetworkState → NetworkState → Prop where
  | query {s : NetworkState} {r : Ref} {n : NetworkNick} : s.nickHeap r = some n →
      Trim s (s.setNick r { n with query := true })
  | unlink {s : NetworkState} {m : Ref} {cn : ChannelNick} {ch : ChannelState}
      {gn : NetworkNick} : cn.channel ∈ s.channels → Known s cn.globalNick →
      s.membHeap m = some cn → s.chanHeap cn.channel = some ch →
      s.nickHeap cn.globalNick = some gn → Trim s (unlink s m cn ch gn)
  | dropNick {s : NetworkState} {g : Ref} {n : NetworkNick} : g ∈ s.nicks →
      s.nickHeap g = some n → n.channelNicks = [] → Trim s (dropNick s g)
  | dropChan {s : NetworkState} {c : Ref} {ch : ChannelState} : c ∈ s.channels →
      s.chanHeap c = some ch → ch.nicks = [] → Trim s (dropChan s c)

/-- One change of a state that names no nick and adds none to a channel. -/
inductive Quiet : NetworkState → NetworkState → Prop where
  | trim {s s' : NetworkState} : Trim s s' → Quiet s s'
  | nick {s : NetworkState} {r : Ref} {n n' : NetworkNick} : s.nickHeap r = some n →
      AttrEdit n n' → Quiet s (s.setNick r n')
  | chan {s : NetworkState} {r : Ref} {c c' : ChannelState} : s.chanHeap r = some c →
      c'.name = c.name → c'.nicks = c.nicks → c'.network = c.network →
      KeepsNul c.modes c'.modes → Quiet s (s.setChan r c')
  | memb {s : NetworkState} {r : Ref} {m m' : ChannelNick} : s.membHeap r = some m →
      m'.channel = m.channel → m'.globalNick = m.globalNick → KeepsNul m.modes m'.modes →
      Quiet s (s.setMemb r m')
  | addChan {s : NetworkState} (name : Str) :
      Quiet s (addChan s { ircChannelStateNew name with network := true })
  | away {s : NetworkState} (b : Bool) : Quiet s { s with isAway := b }

/-- One change of a state. -/
inductive Edit : NetworkState → NetworkState → Prop where
  | quiet {s s' : NetworkState} : Quiet s s' → Edit s s'
  | name {s : NetworkState} {r : Ref} {n n' : NetworkNick} : s.nickHeap r = some n →
      NameEdit n n' → Edit s (s.setNick r n')
  | addNick {s : NetworkState} (name : Str) : Edit s (addNick s (newNetworkNick name))
  | addMemb {s : NetworkState} {c g : Ref} {ch : ChannelState} {gn : NetworkNick} {m : Modes} :
      c ∈ s.channels → Known s g → s.chanHeap c = some ch → s.nickHeap g = some gn →
      KeepsNul modesClear m → Edit s (addMemb s c g ch gn m)

/-- Any number of a destructor's changes. -/
abbrev Trims : NetworkState → NetworkState → Prop := Relation.ReflTransGen Trim

/-- Any number of quiet edits. -/
abbrev Quiets : NetworkState → NetworkState → Prop := Relation.ReflTransGen Quiet

/-- Any number of edits. -/
abbrev Edits : NetworkState → NetworkState → Prop := Relation.ReflTransGen Edit

theorem Trims.quiets {s s' : NetworkState} (h : Trims s s') : Quiets s s' :=
  Relation.ReflTransGen.mono (fun _ _ => .trim) _ _ h

theorem Quiets.edits {s s' : NetworkState} (h : Quiets s s') : Edits s s' :=
  Relation.ReflTransGen.mono (fun _ _ => .quiet) _ _ h

/-- What every change of a destructor keeps, any number of them keeps. -/
theorem Trims.keeps {I : NetworkState → Prop} (hI : ∀ {s s'}, Trim s s' → I s → I s')
    {s s' : NetworkState} (h : Trims s s') (hs : I s) : I s' := by
  induction h with
  | refl => exact hs
  | tail _ h ih => exact hI h ih

/-- What every quiet edit keeps, any number of them keeps. -/
theorem Quiets.keeps {I : NetworkState → Prop} (hI : ∀ {s s'}, Quiet s s' → I s → I s')
    {s s' : NetworkState} (h : Quiets s s') (hs : I s) : I s' := by
  induction h with
  | refl => exact hs
  | tail _ h ih => exact hI h ih

/-- What every edit keeps, any number of edits keeps. -/
theorem Edits.keeps {I : NetworkState → Prop} (hI : ∀ {s s'}, Edit s s' → I s → I s')
    {s s' : NetworkState} (h : Edits s s') (hs : I s) : I s' := by
  induction h with
  | refl => exact hs
  | tail _ h ih => exact hI h ih

theorem Edit.info_eq {s s' : NetworkState} (e : Edit s s') : s'.info = s.info := by
  cases e with
  | quiet q =>
      cases q with
      | trim t => cases t <;> rfl
      | _ => rfl
  | _ => rfl

/-- No edit touches what the server announced. -/
theorem Edits.info_eq {s s' : NetworkState} (h : Edits s s') : s'.info = s.info :=
  h.keeps (I := fun t => t.info = s.info) (fun e => e.info_eq.trans) rfl

/-! ### An edit of a nick's fields keeps its memberships -/

@[simp] theorem networkNickSetData_channelNicks (n : NetworkNick) (a b c : Str) :
    (networkNickSetData n a b c).channelNicks = n.channelNicks := rfl

@[simp] theorem networkNickSetData_query (n : NetworkNick) (a b c : Str) :
    (networkNickSetData n a b c).query = n.query := rfl

@[simp] theorem networkNickSetNick_channelNicks (n : NetworkNick) (a : Str) :
    (networkNickSetNick n a).channelNicks = n.channelNicks := by
  unfold networkNickSetNick; split <;> rfl

@[simp] theorem networkNickSetNick_query (n : NetworkNick) (a : Str) :
    (networkNickSetNick n a).query = n.query := by
  unfold networkNickSetNick; split <;> rfl

@[simp] theorem networkNickSetHostmask_channelNicks (n : NetworkNick) (a : Str) :
    (networkNickSetHostmask n a).channelNicks = n.channelNicks := by
  unfold networkNickSetHostmask; split <;> rfl

@[simp] theorem networkNickSetHostmask_query (n : NetworkNick) (a : Str) :
    (networkNickSetHostmask n a).query = n.query := by
  unfold networkNickSetHostmask; split <;> rfl

theorem AttrEdit.channelNicks {n n' : NetworkNick} (h : AttrEdit n n') :
    n'.channelNicks = n.channelNicks := by
  cases h <;> rfl

theorem AttrEdit.query_of {n n' : NetworkNick} (h : AttrEdit n n') (hq : n.query = true) :
    n'.query = true := by
  cases h <;> simp [whoreplyNick, hq]

theorem NameEdit.channelNicks {n n' : NetworkNick} (h : NameEdit n n') :
    n'.channelNicks = n.channelNicks := by
  cases h <;> simp

theorem NameEdit.query_eq {n n' : NetworkNick} (h : NameEdit n n') : n'.query = n.query := by
  cases h <;> simp

/-! ### Each edit keeps the graph -/

section
variable {s : NetworkState}

/-- Fields of a nick other than its memberships. -/
theorem Graph.setNick (h : Graph s) {r : Ref} {n n' : NetworkNick} (hr : s.nickHeap r = some n)
    (hc : n'.channelNicks = n.channelNicks) (hq : n.query = true → n'.query = true) :
    Graph (s.setNick r n') := by
  have look : ∀ {g gn}, (s.setNick r n').nickHeap g = some gn →
      ∃ gn₀, s.nickHeap g = some gn₀ ∧ gn.channelNicks = gn₀.channelNicks := by
    intro g gn hg
    by_cases e : g = r
    · subst e
      rw [NetworkState.setNick_nickHeap, Heap.set_same] at hg
      cases hg
      exact ⟨n, hr, hc⟩
    · rw [NetworkState.setNick_nickHeap, Heap.set_other e] at hg
      exact ⟨gn, hg, rfl⟩
  refine ⟨h.nicks_nodup, h.channels_nodup, h.me_not_listed, ?_, h.chan_live, ?_, ?_, ?_, ?_⟩
  · intro k hk
    by_cases e : meRef = r
    · rw [NetworkState.setNick_nickHeap, e, Heap.set_same] at hk
      cases hk
      exact hq (h.me_query n (e ▸ hr))
    · rw [NetworkState.setNick_nickHeap, Heap.set_other e] at hk
      exact h.me_query k hk
  · intro g hg
    obtain ⟨gn, hgn, hnd⟩ := h.nick_live g hg
    by_cases e : g = r
    · subst e
      rw [hr] at hgn
      cases hgn
      exact ⟨n', Heap.set_same _ _ _, hc ▸ hnd⟩
    · exact ⟨gn, (Heap.set_other e).trans hgn, hnd⟩
  · intro c hc' ch hch m hm
    obtain ⟨cn, hcn, hch', hk, hback⟩ := h.to_nick c hc' ch hch m hm
    refine ⟨cn, hcn, hch', hk, fun gn hgn => ?_⟩
    obtain ⟨gn₀, hgn₀, e⟩ := look hgn
    exact e ▸ hback gn₀ hgn₀
  · intro g hg gn hgn m hm
    obtain ⟨gn₀, hgn₀, e⟩ := look hgn
    exact h.to_chan g hg gn₀ hgn₀ m (e ▸ hm)
  · intro x hx
    refine ⟨?_, (h.fresh x hx).2⟩
    have hne : x ≠ r := by
      rintro rfl
      rw [(h.fresh x hx).1] at hr
      cases hr
    exact (Heap.set_other hne).trans (h.fresh x hx).1

/-- Fields of a channel other than its members. -/
theorem Graph.setChan (h : Graph s) {r : Ref} {c c' : ChannelState} (hr : s.chanHeap r = some c)
    (hn : c'.nicks = c.nicks) (hw : c'.network = c.network) : Graph (s.setChan r c') := by
  have look : ∀ {x ch}, (s.setChan r c').chanHeap x = some ch →
      ∃ ch₀, s.chanHeap x = some ch₀ ∧ ch.nicks = ch₀.nicks := by
    intro x ch hx
    by_cases e : x = r
    · subst e
      rw [NetworkState.setChan_chanHeap, Heap.set_same] at hx
      cases hx
      exact ⟨c, hr, hn⟩
    · rw [NetworkState.setChan_chanHeap, Heap.set_other e] at hx
      exact ⟨ch, hx, rfl⟩
  refine ⟨h.nicks_nodup, h.channels_nodup, h.me_not_listed, h.me_query, ?_, h.nick_live, ?_, ?_, ?_⟩
  · intro x hx
    obtain ⟨ch, hch, hnet, hnd⟩ := h.chan_live x hx
    by_cases e : x = r
    · subst e
      rw [hr] at hch
      cases hch
      exact ⟨c', Heap.set_same _ _ _, hw ▸ hnet, hn ▸ hnd⟩
    · exact ⟨ch, (Heap.set_other e).trans hch, hnet, hnd⟩
  · intro x hx ch hch m hm
    obtain ⟨ch₀, hch₀, e⟩ := look hch
    exact h.to_nick x hx ch₀ hch₀ m (e ▸ hm)
  · intro g hg gn hgn m hm
    obtain ⟨cn, hcn, hk, hl, hback⟩ := h.to_chan g hg gn hgn m hm
    refine ⟨cn, hcn, hk, hl, fun ch hch => ?_⟩
    obtain ⟨ch₀, hch₀, e⟩ := look hch
    exact e ▸ hback ch₀ hch₀
  · intro x hx
    refine ⟨(h.fresh x hx).1, ?_, (h.fresh x hx).2.2⟩
    have hne : x ≠ r := by
      rintro rfl
      rw [(h.fresh x hx).2.1] at hr
      cases hr
    exact (Heap.set_other hne).trans (h.fresh x hx).2.1

/-- Fields of a membership other than its two ends. -/
theorem Graph.setMemb (h : Graph s) {r : Ref} {m m' : ChannelNick} (hr : s.membHeap r = some m)
    (hc : m'.channel = m.channel) (hg : m'.globalNick = m.globalNick) :
    Graph (s.setMemb r m') := by
  have look : ∀ {x cn}, s.membHeap x = some cn → ∃ cn', (s.setMemb r m').membHeap x = some cn' ∧
      cn'.channel = cn.channel ∧ cn'.globalNick = cn.globalNick := by
    intro x cn hx
    by_cases e : x = r
    · subst e
      rw [hr] at hx
      cases hx
      exact ⟨m', Heap.set_same _ _ _, hc, hg⟩
    · exact ⟨cn, (Heap.set_other e).trans hx, rfl, rfl⟩
  refine ⟨h.nicks_nodup, h.channels_nodup, h.me_not_listed, h.me_query, h.chan_live, h.nick_live,
    ?_, ?_, ?_⟩
  · intro x hx ch hch k hk
    obtain ⟨cn, hcn, e₁, e₂, hback⟩ := h.to_nick x hx ch hch k hk
    obtain ⟨cn', hcn', e₁', e₂'⟩ := look hcn
    exact ⟨cn', hcn', e₁'.trans e₁, e₂' ▸ e₂, e₂' ▸ hback⟩
  · intro g hg' gn hgn k hk
    obtain ⟨cn, hcn, e₁, e₂, hback⟩ := h.to_chan g hg' gn hgn k hk
    obtain ⟨cn', hcn', e₁', e₂'⟩ := look hcn
    exact ⟨cn', hcn', e₂'.trans e₁, e₁' ▸ e₂, e₁' ▸ hback⟩
  · intro x hx
    refine ⟨(h.fresh x hx).1, (h.fresh x hx).2.1, ?_⟩
    have hne : x ≠ r := by
      rintro rfl
      rw [(h.fresh x hx).2.2] at hr
      cases hr
    exact (Heap.set_other hne).trans (h.fresh x hx).2.2

theorem Graph.addNick (h : Graph s) {n : NetworkNick} (hn : n.channelNicks = []) :
    Graph (addNick s n) := by
  have old : ∀ {g}, g ≠ s.next → (Ctrlproxy.addNick s n).nickHeap g = s.nickHeap g :=
    fun e => Heap.set_other e
  have new : (Ctrlproxy.addNick s n).nickHeap s.next = some n := Heap.set_same _ _ _
  have hme : meRef < s.next := h.known_lt (.inl rfl)
  have known : ∀ {g}, Known (Ctrlproxy.addNick s n) g ↔ Known s g ∨ g = s.next := by
    intro g
    simp only [Known, Ctrlproxy.addNick, List.mem_append, List.mem_singleton]
    tauto
  have nick_of : ∀ {g gn}, (Ctrlproxy.addNick s n).nickHeap g = some gn →
      s.nickHeap g = some gn ∨ gn.channelNicks = [] := by
    intro g gn hg
    by_cases e : g = s.next
    · subst e
      rw [new] at hg
      cases hg
      exact .inr hn
    · exact .inl (old e ▸ hg)
  refine ⟨?_, h.channels_nodup, ?_, ?_, h.chan_live, ?_, ?_, ?_, ?_⟩
  · refine List.nodup_append.mpr ⟨h.nicks_nodup, List.nodup_singleton _, ?_⟩
    intro a ha b hb e
    rw [List.mem_singleton.mp hb] at e
    exact (h.known_lt (.inr ha)).ne e
  · intro hm
    rcases List.mem_append.mp hm with hm | hm
    · exact h.me_not_listed hm
    · exact hme.ne (List.mem_singleton.mp hm)
  · intro k hk
    rw [old hme.ne] at hk
    exact h.me_query k hk
  · intro g hg
    rcases known.mp hg with hg | rfl
    · obtain ⟨gn, hgn, hnd⟩ := h.nick_live g hg
      exact ⟨gn, (old (h.known_lt hg).ne).trans hgn, hnd⟩
    · exact ⟨n, new, hn ▸ List.nodup_nil⟩
  · intro c hc ch hch m hm
    obtain ⟨cn, hcn, e, hk, hback⟩ := h.to_nick c hc ch hch m hm
    refine ⟨cn, hcn, e, known.mpr (.inl hk), fun gn hgn => ?_⟩
    rw [old (h.known_lt hk).ne] at hgn
    exact hback gn hgn
  · intro g hg gn hgn m hm
    rcases nick_of hgn with hgn' | hnil
    · rcases known.mp hg with hg | rfl
      · exact h.to_chan g hg gn hgn' m hm
      · rw [(h.fresh _ le_rfl).1] at hgn'
        cases hgn'
    · rw [hnil] at hm
      cases hm
  · intro r hr
    have hlt : s.next < r := hr
    exact ⟨(old hlt.ne').trans (h.fresh r hlt.le).1, (h.fresh r hlt.le).2⟩

theorem Graph.addChan (h : Graph s) {c : ChannelState} (hn : c.nicks = [])
    (hw : c.network = true) : Graph (addChan s c) := by
  have old : ∀ {x}, x ≠ s.next → (Ctrlproxy.addChan s c).chanHeap x = s.chanHeap x :=
    fun e => Heap.set_other e
  have new : (Ctrlproxy.addChan s c).chanHeap s.next = some c := Heap.set_same _ _ _
  refine ⟨h.nicks_nodup, ?_, h.me_not_listed, h.me_query, ?_, h.nick_live, ?_, ?_, ?_⟩
  · refine List.nodup_append.mpr ⟨h.channels_nodup, List.nodup_singleton _, ?_⟩
    intro a ha b hb e
    rw [List.mem_singleton.mp hb] at e
    exact (h.channel_lt ha).ne e
  · intro x hx
    rcases List.mem_append.mp hx with hx | hx
    · obtain ⟨ch, hch, hrest⟩ := h.chan_live x hx
      exact ⟨ch, (old (h.channel_lt hx).ne).trans hch, hrest⟩
    · rw [List.mem_singleton.mp hx]
      exact ⟨c, new, hw, hn ▸ List.nodup_nil⟩
  · intro x hx ch hch m hm
    by_cases e : x = s.next
    · subst e
      rw [new] at hch
      cases hch
      rw [hn] at hm
      cases hm
    · rw [old e] at hch
      rcases List.mem_append.mp hx with hx | hx
      · exact h.to_nick x hx ch hch m hm
      · exact absurd (List.mem_singleton.mp hx) e
  · intro g hg gn hgn m hm
    obtain ⟨cn, hcn, e, hl, hback⟩ := h.to_chan g hg gn hgn m hm
    refine ⟨cn, hcn, e, List.mem_append_left _ hl, fun ch hch => ?_⟩
    rw [old (h.channel_lt hl).ne] at hch
    exact hback ch hch
  · intro r hr
    have hlt : s.next < r := hr
    exact ⟨(h.fresh r hlt.le).1, (old hlt.ne').trans (h.fresh r hlt.le).2.1,
      (h.fresh r hlt.le).2.2⟩

theorem Graph.addMemb (h : Graph s) {c g : Ref} {ch : ChannelState} {gn : NetworkNick} {m : Modes}
    (hc : c ∈ s.channels) (hg : Known s g) (hch : s.chanHeap c = some ch)
    (hgn : s.nickHeap g = some gn) : Graph (addMemb s c g ch gn m) := by
  have chan_new : (Ctrlproxy.addMemb s c g ch gn m).chanHeap c =
      some { ch with nicks := ch.nicks ++ [s.next] } := Heap.set_same _ _ _
  have chan_old : ∀ {x}, x ≠ c → (Ctrlproxy.addMemb s c g ch gn m).chanHeap x = s.chanHeap x :=
    fun e => Heap.set_other e
  have nick_new : (Ctrlproxy.addMemb s c g ch gn m).nickHeap g =
      some { gn with channelNicks := gn.channelNicks ++ [s.next] } := Heap.set_same _ _ _
  have nick_old : ∀ {x}, x ≠ g → (Ctrlproxy.addMemb s c g ch gn m).nickHeap x = s.nickHeap x :=
    fun e => Heap.set_other e
  have memb_new : (Ctrlproxy.addMemb s c g ch gn m).membHeap s.next =
      some ⟨m, g, c, long0, none⟩ := Heap.set_same _ _ _
  have memb_old : ∀ {x cn}, s.membHeap x = some cn →
      (Ctrlproxy.addMemb s c g ch gn m).membHeap x = some cn :=
    fun hx => (Heap.set_other (h.memb_lt hx).ne).trans hx
  -- the old members stay members, and the new address is in neither list yet
  have in_chan : ∀ {x ch' k}, s.chanHeap x = some ch' → k ∈ ch'.nicks →
      ∀ ch'', (Ctrlproxy.addMemb s c g ch gn m).chanHeap x = some ch'' → k ∈ ch''.nicks := by
    intro x ch' k hx hk ch'' hx''
    by_cases e : x = c
    · subst e
      rw [hch] at hx
      cases hx
      rw [chan_new] at hx''
      cases hx''
      exact List.mem_append_left _ hk
    · rw [chan_old e, hx] at hx''
      cases hx''
      exact hk
  have in_nick : ∀ {x gn' k}, s.nickHeap x = some gn' → k ∈ gn'.channelNicks →
      ∀ gn'', (Ctrlproxy.addMemb s c g ch gn m).nickHeap x = some gn'' → k ∈ gn''.channelNicks := by
    intro x gn' k hx hk gn'' hx''
    by_cases e : x = g
    · subst e
      rw [hgn] at hx
      cases hx
      rw [nick_new] at hx''
      cases hx''
      exact List.mem_append_left _ hk
    · rw [nick_old e, hx] at hx''
      cases hx''
      exact hk
  refine ⟨h.nicks_nodup, h.channels_nodup, h.me_not_listed, ?_, ?_, ?_, ?_, ?_, ?_⟩
  · intro n hn
    by_cases e : meRef = g
    · rw [e, nick_new] at hn
      cases hn
      exact h.me_query gn (e ▸ hgn)
    · rw [nick_old e] at hn
      exact h.me_query n hn
  · intro x hx
    obtain ⟨ch', hch', hw, hnd⟩ := h.chan_live x hx
    by_cases e : x = c
    · subst e
      rw [hch] at hch'
      cases hch'
      refine ⟨_, chan_new, hw, List.nodup_append.mpr ⟨hnd, List.nodup_singleton _, ?_⟩⟩
      intro a ha b hb e
      obtain ⟨cn, hcn, -⟩ := h.to_nick x hx ch hch a ha
      exact (h.memb_lt hcn).ne (e.trans (List.mem_singleton.mp hb))
    · exact ⟨ch', (chan_old e).trans hch', hw, hnd⟩
  · intro x hx
    obtain ⟨gn', hgn', hnd⟩ := h.nick_live x hx
    by_cases e : x = g
    · subst e
      rw [hgn] at hgn'
      cases hgn'
      refine ⟨_, nick_new, List.nodup_append.mpr ⟨hnd, List.nodup_singleton _, ?_⟩⟩
      intro a ha b hb e
      obtain ⟨cn, hcn, -⟩ := h.to_chan x hx gn hgn a ha
      exact (h.memb_lt hcn).ne (e.trans (List.mem_singleton.mp hb))
    · exact ⟨gn', (nick_old e).trans hgn', hnd⟩
  · intro x hx ch' hch' k hk
    have old : ∀ ch₀, s.chanHeap x = some ch₀ → k ∈ ch₀.nicks →
        ∃ cn, (Ctrlproxy.addMemb s c g ch gn m).membHeap k = some cn ∧ cn.channel = x ∧
          Known s cn.globalNick ∧ ∀ gn', (Ctrlproxy.addMemb s c g ch gn m).nickHeap cn.globalNick =
            some gn' → k ∈ gn'.channelNicks := by
      intro ch₀ hch₀ hk₀
      obtain ⟨cn, hcn, e, hkn, hback⟩ := h.to_nick x hx ch₀ hch₀ k hk₀
      obtain ⟨gn₀, hgn₀, -⟩ := h.nick_live _ hkn
      exact ⟨cn, memb_old hcn, e, hkn, in_nick hgn₀ (hback gn₀ hgn₀)⟩
    by_cases e : x = c
    · subst e
      rw [chan_new] at hch'
      cases hch'
      rcases List.mem_append.mp hk with hk | hk
      · exact old ch hch hk
      · rw [List.mem_singleton.mp hk]
        refine ⟨_, memb_new, rfl, hg, fun gn' hgn' => ?_⟩
        rw [nick_new] at hgn'
        cases hgn'
        exact List.mem_append_right _ (List.mem_singleton.mpr rfl)
    · rw [chan_old e] at hch'
      exact old ch' hch' hk
  · intro x hx gn' hgn' k hk
    have old : ∀ gn₀, s.nickHeap x = some gn₀ → k ∈ gn₀.channelNicks →
        ∃ cn, (Ctrlproxy.addMemb s c g ch gn m).membHeap k = some cn ∧ cn.globalNick = x ∧
          cn.channel ∈ s.channels ∧ ∀ ch', (Ctrlproxy.addMemb s c g ch gn m).chanHeap cn.channel =
            some ch' → k ∈ ch'.nicks := by
      intro gn₀ hgn₀ hk₀
      obtain ⟨cn, hcn, e, hl, hback⟩ := h.to_chan x hx gn₀ hgn₀ k hk₀
      obtain ⟨ch₀, hch₀, -⟩ := h.chan_live _ hl
      exact ⟨cn, memb_old hcn, e, hl, in_chan hch₀ (hback ch₀ hch₀)⟩
    by_cases e : x = g
    · subst e
      rw [nick_new] at hgn'
      cases hgn'
      rcases List.mem_append.mp hk with hk | hk
      · exact old gn hgn hk
      · rw [List.mem_singleton.mp hk]
        refine ⟨_, memb_new, rfl, hc, fun ch' hch' => ?_⟩
        rw [chan_new] at hch'
        cases hch'
        exact List.mem_append_right _ (List.mem_singleton.mpr rfl)
    · rw [nick_old e] at hgn'
      exact old gn' hgn' hk
  · intro r hr
    have hlt : s.next < r := hr
    have hcr : r ≠ c := ((h.channel_lt hc).trans hlt).ne'
    have hgr : r ≠ g := ((h.known_lt hg).trans hlt).ne'
    exact ⟨(nick_old hgr).trans (h.fresh r hlt.le).1, (chan_old hcr).trans (h.fresh r hlt.le).2.1,
      (Heap.set_other hlt.ne').trans (h.fresh r hlt.le).2.2⟩

theorem Graph.unlink (h : Graph s) {m : Ref} {cn : ChannelNick} {ch : ChannelState}
    {gn : NetworkNick} (hc : cn.channel ∈ s.channels) (hg : Known s cn.globalNick)
    (hm : s.membHeap m = some cn) (hch : s.chanHeap cn.channel = some ch)
    (hgn : s.nickHeap cn.globalNick = some gn) : Graph (unlink s m cn ch gn) := by
  have chan_new : (Ctrlproxy.unlink s m cn ch gn).chanHeap cn.channel =
      some { ch with nicks := ch.nicks.erase m } := Heap.set_same _ _ _
  have chan_old : ∀ {x}, x ≠ cn.channel →
      (Ctrlproxy.unlink s m cn ch gn).chanHeap x = s.chanHeap x := fun e => Heap.set_other e
  have nick_new : (Ctrlproxy.unlink s m cn ch gn).nickHeap cn.globalNick =
      some { gn with channelNicks := gn.channelNicks.erase m } := Heap.set_same _ _ _
  have nick_old : ∀ {x}, x ≠ cn.globalNick →
      (Ctrlproxy.unlink s m cn ch gn).nickHeap x = s.nickHeap x := fun e => Heap.set_other e
  have chan_nd : ch.nicks.Nodup := by
    obtain ⟨ch', hch', -, hnd⟩ := h.chan_live _ hc
    rw [hch] at hch'
    cases hch'
    exact hnd
  have nick_nd : gn.channelNicks.Nodup := by
    obtain ⟨gn', hgn', hnd⟩ := h.nick_live _ hg
    rw [hgn] at hgn'
    cases hgn'
    exact hnd
  -- what is still listed was listed, and is not the membership taken out
  have chan_of : ∀ {x ch' k}, x ∈ s.channels →
      (Ctrlproxy.unlink s m cn ch gn).chanHeap x = some ch' → k ∈ ch'.nicks →
      k ≠ m ∧ ∃ ch₀, s.chanHeap x = some ch₀ ∧ k ∈ ch₀.nicks := by
    intro x ch' k hx hch' hk
    by_cases e : x = cn.channel
    · subst e
      rw [chan_new] at hch'
      cases hch'
      obtain ⟨hne, hk⟩ := chan_nd.mem_erase_iff.mp hk
      exact ⟨hne, ch, hch, hk⟩
    · rw [chan_old e] at hch'
      refine ⟨?_, ch', hch', hk⟩
      rintro rfl
      obtain ⟨cn', hcn', e', -⟩ := h.to_nick x hx ch' hch' k hk
      rw [hm] at hcn'
      cases hcn'
      exact e e'.symm
  have nick_of : ∀ {x gn' k}, Known s x →
      (Ctrlproxy.unlink s m cn ch gn).nickHeap x = some gn' → k ∈ gn'.channelNicks →
      k ≠ m ∧ ∃ gn₀, s.nickHeap x = some gn₀ ∧ k ∈ gn₀.channelNicks := by
    intro x gn' k hx hgn' hk
    by_cases e : x = cn.globalNick
    · subst e
      rw [nick_new] at hgn'
      cases hgn'
      obtain ⟨hne, hk⟩ := nick_nd.mem_erase_iff.mp hk
      exact ⟨hne, gn, hgn, hk⟩
    · rw [nick_old e] at hgn'
      refine ⟨?_, gn', hgn', hk⟩
      rintro rfl
      obtain ⟨cn', hcn', e', -⟩ := h.to_chan x hx gn' hgn' k hk
      rw [hm] at hcn'
      cases hcn'
      exact e e'.symm
  have in_chan : ∀ {x ch₀ k}, k ≠ m → s.chanHeap x = some ch₀ → k ∈ ch₀.nicks →
      ∀ ch', (Ctrlproxy.unlink s m cn ch gn).chanHeap x = some ch' → k ∈ ch'.nicks := by
    intro x ch₀ k hne hx hk ch' hch'
    by_cases e : x = cn.channel
    · subst e
      rw [hch] at hx
      cases hx
      rw [chan_new] at hch'
      cases hch'
      exact (List.mem_erase_of_ne hne).mpr hk
    · rw [chan_old e, hx] at hch'
      cases hch'
      exact hk
  have in_nick : ∀ {x gn₀ k}, k ≠ m → s.nickHeap x = some gn₀ → k ∈ gn₀.channelNicks →
      ∀ gn', (Ctrlproxy.unlink s m cn ch gn).nickHeap x = some gn' → k ∈ gn'.channelNicks := by
    intro x gn₀ k hne hx hk gn' hgn'
    by_cases e : x = cn.globalNick
    · subst e
      rw [hgn] at hx
      cases hx
      rw [nick_new] at hgn'
      cases hgn'
      exact (List.mem_erase_of_ne hne).mpr hk
    · rw [nick_old e, hx] at hgn'
      cases hgn'
      exact hk
  refine ⟨h.nicks_nodup, h.channels_nodup, h.me_not_listed, ?_, ?_, ?_, ?_, ?_, ?_⟩
  · intro n hn
    by_cases e : meRef = cn.globalNick
    · rw [e, nick_new] at hn
      cases hn
      exact h.me_query gn (e ▸ hgn)
    · rw [nick_old e] at hn
      exact h.me_query n hn
  · intro x hx
    obtain ⟨ch', hch', hw, hnd⟩ := h.chan_live x hx
    by_cases e : x = cn.channel
    · subst e
      rw [hch] at hch'
      cases hch'
      exact ⟨_, chan_new, hw, chan_nd.erase m⟩
    · exact ⟨ch', (chan_old e).trans hch', hw, hnd⟩
  · intro x hx
    obtain ⟨gn', hgn', hnd⟩ := h.nick_live x hx
    by_cases e : x = cn.globalNick
    · subst e
      exact ⟨_, nick_new, nick_nd.erase m⟩
    · exact ⟨gn', (nick_old e).trans hgn', hnd⟩
  · intro x hx ch' hch' k hk
    obtain ⟨hne, ch₀, hch₀, hk₀⟩ := chan_of hx hch' hk
    obtain ⟨cn', hcn', e, hkn, hback⟩ := h.to_nick x hx ch₀ hch₀ k hk₀
    obtain ⟨gn₀, hgn₀, -⟩ := h.nick_live _ hkn
    exact ⟨cn', (Heap.del_other hne).trans hcn', e, hkn, in_nick hne hgn₀ (hback gn₀ hgn₀)⟩
  · intro x hx gn' hgn' k hk
    obtain ⟨hne, gn₀, hgn₀, hk₀⟩ := nick_of hx hgn' hk
    obtain ⟨cn', hcn', e, hl, hback⟩ := h.to_chan x hx gn₀ hgn₀ k hk₀
    obtain ⟨ch₀, hch₀, -⟩ := h.chan_live _ hl
    exact ⟨cn', (Heap.del_other hne).trans hcn', e, hl, in_chan hne hch₀ (hback ch₀ hch₀)⟩
  · intro r hr
    have hcr : r ≠ cn.channel := ((h.channel_lt hc).trans_le hr).ne'
    have hgr : r ≠ cn.globalNick := ((h.known_lt hg).trans_le hr).ne'
    have hmr : r ≠ m := ((h.memb_lt hm).trans_le hr).ne'
    exact ⟨(nick_old hgr).trans (h.fresh r hr).1, (chan_old hcr).trans (h.fresh r hr).2.1,
      (Heap.del_other hmr).trans (h.fresh r hr).2.2⟩

theorem Graph.dropNick (h : Graph s) {g : Ref} {n : NetworkNick} (hg : g ∈ s.nicks)
    (hn : s.nickHeap g = some n) (hnil : n.channelNicks = []) : Graph (dropNick s g) := by
  have hme : meRef ≠ g := fun e => h.me_not_listed (e ▸ hg)
  have known : ∀ {x}, Known (Ctrlproxy.dropNick s g) x ↔ Known s x ∧ x ≠ g := by
    intro x
    simp only [Known, Ctrlproxy.dropNick, h.nicks_nodup.mem_erase_iff]
    constructor
    · rintro (rfl | ⟨hne, hx⟩)
      · exact ⟨.inl rfl, hme⟩
      · exact ⟨.inr hx, hne⟩
    · rintro ⟨rfl | hx, hne⟩
      · exact .inl rfl
      · exact .inr ⟨hne, hx⟩
  have look : ∀ {x gn}, (Ctrlproxy.dropNick s g).nickHeap x = some gn →
      s.nickHeap x = some gn := fun hx => Heap.of_del hx
  refine ⟨h.nicks_nodup.erase g, h.channels_nodup, ?_, ?_, h.chan_live, ?_, ?_, ?_, ?_⟩
  · exact fun hm => h.me_not_listed (List.mem_of_mem_erase hm)
  · exact fun k hk => h.me_query k (look hk)
  · intro x hx
    obtain ⟨hk, hne⟩ := known.mp hx
    obtain ⟨gn, hgn, hnd⟩ := h.nick_live x hk
    exact ⟨gn, (Heap.del_other hne).trans hgn, hnd⟩
  · intro c hc ch hch m hm
    obtain ⟨cn, hcn, e, hk, hback⟩ := h.to_nick c hc ch hch m hm
    have hne : cn.globalNick ≠ g := by
      rintro rfl
      have := hback n hn
      rw [hnil] at this
      cases this
    exact ⟨cn, hcn, e, known.mpr ⟨hk, hne⟩, fun gn hgn => hback gn (look hgn)⟩
  · intro x hx gn hgn m hm
    exact h.to_chan x (known.mp hx).1 gn (look hgn) m hm
  · intro r hr
    exact ⟨Heap.del_none (h.fresh r hr).1, (h.fresh r hr).2⟩

theorem Graph.dropChan (h : Graph s) {c : Ref} {ch : ChannelState}
    (hch : s.chanHeap c = some ch) (hnil : ch.nicks = []) : Graph (dropChan s c) := by
  have look : ∀ {x ch'}, (Ctrlproxy.dropChan s c).chanHeap x = some ch' →
      s.chanHeap x = some ch' := fun hx => Heap.of_del hx
  refine ⟨h.nicks_nodup, h.channels_nodup.erase c, h.me_not_listed, h.me_query, ?_, h.nick_live,
    ?_, ?_, ?_⟩
  · intro x hx
    obtain ⟨hne, hx⟩ := h.channels_nodup.mem_erase_iff.mp hx
    obtain ⟨ch', hch', hrest⟩ := h.chan_live x hx
    exact ⟨ch', (Heap.del_other hne).trans hch', hrest⟩
  · intro x hx ch' hch' m hm
    exact h.to_nick x (List.mem_of_mem_erase hx) ch' (look hch') m hm
  · intro g hg gn hgn m hm
    obtain ⟨cn, hcn, e, hl, hback⟩ := h.to_chan g hg gn hgn m hm
    have hne : cn.channel ≠ c := by
      rintro rfl
      have := hback ch hch
      rw [hnil] at this
      cases this
    exact ⟨cn, hcn, e, (List.mem_erase_of_ne hne).mpr hl, fun ch' hch' => hback ch' (look hch')⟩
  · intro r hr
    exact ⟨(h.fresh r hr).1, Heap.del_none (h.fresh r hr).2.1, (h.fresh r hr).2.2⟩

theorem Trim.graph {s s' : NetworkState} (e : Trim s s') (h : Graph s) : Graph s' := by
  cases e with
  | query hr => exact h.setNick hr rfl fun _ => rfl
  | unlink hc hg hm hch hgn => exact h.unlink hc hg hm hch hgn
  | dropNick hg hn hnil => exact h.dropNick hg hn hnil
  | dropChan _ hch hnil => exact h.dropChan hch hnil

theorem Quiet.graph {s s' : NetworkState} (e : Quiet s s') (h : Graph s) : Graph s' := by
  cases e with
  | trim t => exact t.graph h
  | nick hr he => exact h.setNick hr he.channelNicks he.query_of
  | chan hr _ hn hw _ => exact h.setChan hr hn hw
  | memb hr hc hg _ => exact h.setMemb hr hc hg
  | addChan name => exact h.addChan rfl rfl
  | away b => exact ⟨h.1, h.2, h.3, h.4, h.5, h.6, h.7, h.8, h.9⟩

/-- **Every edit keeps the membership graph.** -/
theorem Edit.graph {s s' : NetworkState} (e : Edit s s') (h : Graph s) : Graph s' := by
  cases e with
  | quiet q => exact q.graph h
  | name hr he => exact h.setNick hr he.channelNicks fun hq => he.query_eq.trans hq
  | addNick name => exact h.addNick rfl
  | addMemb hc hg hch hgn _ => exact h.addMemb hc hg hch hgn

theorem Trims.graph {s s' : NetworkState} (e : Trims s s') (h : Graph s) : Graph s' :=
  Trims.keeps Trim.graph e h

theorem Quiets.graph {s s' : NetworkState} (e : Quiets s s') (h : Graph s) : Graph s' :=
  Quiets.keeps Quiet.graph e h

theorem Edits.graph {s s' : NetworkState} (e : Edits s s') (h : Graph s) : Graph s' :=
  Edits.keeps Edit.graph e h

end

end Ctrlproxy
