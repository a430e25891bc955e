import Ctrlproxy.State.People
import Ctrlproxy.State.Removal

/-!
# State — every handler is a sequence of edits

One lemma per function of the state machine: on a consistent graph, what it returns is the state
it was given after some edits.  Handlers that name nobody make quiet edits only.  Three lines are
no edits: 001 renames the user without touching the hostmask, 004 and 005 replace what the server
announced (`Step`).

The fault predicate `E` of these lemmas leaves every fault open but `modeIndex`: an access outside
the 255 slots of a mode table is traced to the mode character `0xFF` that caused it
(`ModeSafe`).
-/

namespace Ctrlproxy
open Outcome

/-! ### Pointers -/

section
variable {s : NetworkState} {E : Fault → Prop}

theorem NetworkState.nick_ensures (hE : ∀ e, e ≠ .modeIndex → E e) (r : Ref) :
    Ensures (s.nick r) (fun n => s.nickHeap r = some n) E := by
  unfold NetworkState.nick
  split
  · assumption
  · exact hE _ (by decide)

theorem NetworkState.chan_ensures (hE : ∀ e, e ≠ .modeIndex → E e) (r : Ref) :
    Ensures (s.chan r) (fun c => s.chanHeap r = some c) E := by
  unfold NetworkState.chan
  split
  · assumption
  · exact hE _ (by decide)

theorem NetworkState.memb_ensures (hE : ∀ e, e ≠ .modeIndex → E e) (r : Ref) :
    Ensures (s.memb r) (fun m => s.membHeap r = some m) E := by
  unfold NetworkState.memb
  split
  · assumption
  · exact hE _ (by decide)

theorem NetworkState.modifyNick_ensures (hE : ∀ e, e ≠ .modeIndex → E e) (r : Ref)
    (f : NetworkNick → NetworkNick) :
    Ensures (s.modifyNick r f)
      (fun s' => ∃ n, s.nickHeap r = some n ∧ s' = s.setNick r (f n)) E :=
  (NetworkState.nick_ensures hE r).bind fun n hn => ⟨n, hn, rfl⟩

theorem NetworkState.modifyChan_ensures (hE : ∀ e, e ≠ .modeIndex → E e) (r : Ref)
    (f : ChannelState → ChannelState) :
    Ensures (s.modifyChan r f)
      (fun s' => ∃ c, s.chanHeap r = some c ∧ s' = s.setChan r (f c)) E :=
  (NetworkState.chan_ensures hE r).bind fun c hc => ⟨c, hc, rfl⟩

end

/-! ### Arguments and comparisons -/

section
variable {s : NetworkState} {l : IrcLine} {E : Fault → Prop}

theorem IrcLine.arg_ensures (hE : ∀ e, e ≠ .modeIndex → E e) (i : ℕ) :
    Ensures (l.arg i) (fun _ => True) E := by
  unfold IrcLine.arg
  split
  · trivial
  · exact hE _ (by decide)

theorem IrcLine.argStr_ensures (hE : ∀ e, e ≠ .modeIndex → E e) (i : ℕ) :
    Ensures (l.argStr i) (fun w => l.args[i]? = some w) E := by
  unfold IrcLine.argStr
  split
  · split
    · assumption
    · exact hE _ (by decide)
  · exact hE _ (by decide)

theorem lineGetNick_ensures (hE : ∀ e, e ≠ .modeIndex → E e) :
    Ensures (lineGetNick l)
      (fun n => ∃ o, l.origin = some o ∧ n = o.takeWhile (· ≠ chr '!')) E := by
  unfold lineGetNick
  split
  · exact hE _ (by decide)
  · rename_i o ho
    exact ⟨o, ho, rfl⟩

theorem irccmp_ensures (hE : ∀ e, e ≠ .modeIndex → E e) (n : Option NetworkInfo)
    (a b : Option Str) : Ensures (irccmp n a b) (fun _ => True) E := by
  unfold irccmp
  split
  · trivial
  · exact hE _ (by decide)

theorem ircEq_ensures (hE : ∀ e, e ≠ .modeIndex → E e) (n : Option NetworkInfo)
    (a b : Option Str) : Ensures (ircEq n a b) (fun _ => True) E :=
  (irccmp_ensures hE n a b).bind fun _ _ => trivial

/-! ### Searches -/

theorem findChannel_ensures (hE : ∀ e, e ≠ .modeIndex → E e) (name : Str) :
    Ensures (findChannel s name) (fun r => ∀ c ∈ r, c ∈ s.channels) E := by
  refine (findFirst_ensures fun r _ => ?_).imp fun r hr c hc => (hr c hc).1
  exact (NetworkState.chan_ensures hE r).bind fun c _ => ircEq_ensures hE _ _ _

theorem findNetworkNick_ensures (hE : ∀ e, e ≠ .modeIndex → E e) (name : Str) :
    Ensures (findNetworkNick s name) (fun r => ∀ g ∈ r, Known s g) E := by
  refine (findFirst_ensures fun r _ => ?_).imp fun r hr g hg => ?_
  · exact (NetworkState.nick_ensures hE r).bind fun n _ => ircEq_ensures hE _ _ _
  · exact List.mem_cons.mp (hr g hg).1

/-- What `find_channel_nick` finds is a member of the channel. -/
theorem findChannelNick_ensures (hE : ∀ e, e ≠ .modeIndex → E e) (c : Ref) (name : Str) :
    Ensures (findChannelNick s c name)
      (fun r => ∀ m ∈ r, ∃ ch, s.chanHeap c = some ch ∧ m ∈ ch.nicks) E := by
  refine (NetworkState.chan_ensures hE c).bind fun ch hch => ?_
  refine (findFirst_ensures fun r _ => ?_).imp fun r hr m hm => ⟨ch, hch, (hr m hm).1⟩
  refine (NetworkState.memb_ensures hE r).bind fun cn _ => ?_
  exact (NetworkState.nick_ensures hE _).bind fun n _ => ircEq_ensures hE _ _ _

/-! ### Searches that create -/

theorem findAddChannel_silent (hE : ∀ e, e ≠ .modeIndex → E e) (name : Str) :
    Ensures (findAddChannel s name) (fun r => Silent s r.2 ∧ r.1 ∈ r.2.channels) E := by
  refine (findChannel_ensures hE name).bind fun r hr => ?_
  cases r with
  | some c => exact ⟨.refl, hr c rfl⟩
  | none => exact ⟨.addChan name, List.mem_append_right _ (List.mem_singleton_self _)⟩

theorem findAddNetworkNick_edits (hE : ∀ e, e ≠ .modeIndex → E e) (name : Str) :
    Ensures (findAddNetworkNick s name) (fun r => Edits s r.2 ∧ Known r.2 r.1 ∧
      r.2.channels = s.channels) E := by
  refine (findNetworkNick_ensures hE name).bind fun r hr => ?_
  cases r with
  | some g => exact ⟨.refl, hr g rfl, rfl⟩
  | none =>
      dsimp only
      split
      · exact hE _ (by decide)
      · refine ⟨.single (.addNick name), .inr ?_, rfl⟩
        exact List.mem_append_right _ (List.mem_singleton_self _)

/-! ### Mode sets -/

theorem modeSlot_ensures {b : Byte} (hb : b = byteFF → E .modeIndex) :
    Ensures (modeSlot b) (fun i => i.1 = b.1) E := by
  unfold modeSlot
  split
  · rfl
  · rename_i hlt
    refine hb (Subtype.ext ?_)
    have := b.2.2
    unfold MAXMODES at hlt
    show b.1 = 255
    omega

theorem KeepsNul.trans {m₁ m₂ m₃ : Modes} (h : KeepsNul m₁ m₂) (h' : KeepsNul m₂ m₃) :
    KeepsNul m₁ m₃ := fun hm => h (h' hm)

/-- No mode character is the terminator, so no mode change touches slot 0. -/
theorem modesChangeMode_ensures {b : Byte} (hb : b = byteFF → E .modeIndex) (modes : Modes) (set : Bool) :
    Ensures (modesChangeMode modes set b) (KeepsNul modes) E := by
  refine (modeSlot_ensures hb).bind fun i hi h0 => ?_
  unfold ModeArray.set at h0
  split at h0
  · rename_i e
    have := b.2.1
    rw [← hi, ← e] at this
    cases this
  · exact h0

theorem changeModes_ensures {w : Str} (hw : byteFF ∈ w → E .modeIndex) (action : Bool) (modes : Modes) :
    Ensures (changeModes action modes w) (KeepsNul modes) E := by
  induction w generalizing action modes with
  | nil => exact KeepsNul.refl modes
  | cons b w ih =>
      have ih' := ih fun h => hw (List.mem_cons_of_mem _ h)
      unfold changeModes
      split
      · exact ih' true modes
      · split
        · exact ih' false modes
        · have hb : b = byteFF → E .modeIndex := by
            rintro rfl
            exact hw List.mem_cons_self
          refine (modesChangeMode_ensures hb modes action).bind fun m hm => ?_
          exact (ih' action m).imp fun _ h => hm.trans h

/-- A mode string with a sign in front has the character `0xFF`. -/
def SignedFF (w : Str) : Prop :=
  (w.head? = some (chr '+') ∨ w.head? = some (chr '-')) ∧ byteFF ∈ w

theorem string2mode_ensures {w : Str} (hw : SignedFF w → E .modeIndex) (m : Modes) :
    Ensures (string2mode (some w)) (fun p => KeepsNul m p.1) E := by
  have clear : KeepsNul m modesClear := by
    intro h
    cases h
  unfold string2mode
  split
  · exact clear
  · exact clear
  · rename_i b w' e
    cases e
    split
    · exact clear
    · rename_i hs
      have hFF : byteFF ∈ b :: w' → E .modeIndex := by
        refine fun h => hw ⟨?_, h⟩
        by_contra hno
        simp only [List.head?_cons, Option.some.injEq, not_or] at hno
        exact hs hno
      exact (changeModes_ensures hFF true modesClear).bind fun m' hm' => clear.trans hm'

/-- The prefix character of a name stands for the mode `0xFF`. -/
def PrefixFF (info : NetworkInfo) (name : Str) : Prop :=
  ∃ p, name.head? = some p ∧ getModeByPrefix p info = some byteFF

theorem prefixModes_ensures {info : NetworkInfo} {name : Str} {p : Option Byte}
    (hp : p = none ∨ p = name.head?) (hFF : PrefixFF info name → E .modeIndex) :
    Ensures (prefixModes info p) (KeepsNul modesClear) E := by
  unfold prefixModes
  split
  · exact KeepsNul.refl _
  · rename_i b
    split
    · exact KeepsNul.refl _
    · rename_i m hm
      refine modesChangeMode_ensures (fun e => hFF ⟨b, ?_, e ▸ hm⟩) _ _
      rcases hp with hp | hp
      · cases hp
      · exact hp.symm

theorem addChannelNick_edits (hE : ∀ e, e ≠ .modeIndex → E e) {c : Ref}
    (hc : c ∈ s.channels) {name : Str} {p : Option Byte} (hp : p = none ∨ p = name.head?)
    (hFF : PrefixFF s.info name → E .modeIndex) (realname : Str) :
    Ensures (addChannelNick s c realname p) (fun r => Edits s r.2 ∧ r.2.channels = s.channels ∧
      ∃ cn, r.2.membHeap r.1 = some cn ∧ Known r.2 cn.globalNick) E := by
  refine (findAddNetworkNick_edits hE _).bind ?_
  rintro ⟨g, s₁⟩ ⟨he, hk, hcs⟩
  have hFF' : PrefixFF s₁.info name → E .modeIndex := by
    rw [he.info_eq]
    exact hFF
  refine (prefixModes_ensures hp hFF').bind fun modes hmodes => ?_
  refine (NetworkState.chan_ensures hE c).bind fun ch hch => ?_
  refine (NetworkState.nick_ensures hE g).bind fun gn hgn => ?_
  exact ⟨he.tail (.addMemb (hcs ▸ hc) hk hch hgn hmodes), hcs, _, Heap.set_same _ _ _, hk⟩

/-- A membership that `find_add_channel_nick` returns leads to a known nick. -/
theorem findAddChannelNick_edits (hE : ∀ e, e ≠ .modeIndex → E e) (h : Graph s) {c : Ref}
    (hc : c ∈ s.channels) {name : Str} (hFF : PrefixFF s.info name → E .modeIndex) :
    Ensures (findAddChannelNick s c name) (fun r => Edits s r.2 ∧ r.2.channels = s.channels ∧
      ∃ cn, r.2.membHeap r.1 = some cn ∧ Known r.2 cn.globalNick) E := by
  unfold findAddChannelNick
  split
  · exact hE .assertion (by decide)
  refine (NetworkState.chan_ensures hE c).bind fun ch hch => ?_
  split
  · exact hE .assertion (by decide)
  refine (findChannelNick_ensures hE c _).bind fun r hr => ?_
  cases r with
  | some m =>
      obtain ⟨ch', hch', hm⟩ := hr m rfl
      obtain ⟨cn, gn, hl, -⟩ := h.link_of_chan hc hch' hm
      exact ⟨.refl, rfl, cn, hl.memb, hl.known⟩
  | none => exact addChannelNick_edits hE hc (by split <;> simp) hFF _

end

/-! ### Joining and leaving -/

section
variable {s : NetworkState} {l : IrcLine} {E : Fault → Prop}

theorem joinChannel_edits (hE : ∀ e, e ≠ .modeIndex → E e) (h : Graph s) {origin nick : Str}
    (hFF : PrefixFF s.info nick → E .modeIndex) (name : Str) :
    Ensures (joinChannel origin nick s name) (Edits s) E := by
  refine (findAddChannel_silent hE name).bind ?_
  rintro ⟨c, s₁⟩ ⟨e₁, hc⟩
  have hp : PrefixFF s₁.info nick → E .modeIndex := by
    rw [e₁.edits.info_eq]
    exact hFF
  refine (findAddChannelNick_edits hE (e₁.graph h) hc hp).bind ?_
  rintro ⟨m, s₂⟩ ⟨e₂, -, -⟩
  refine (NetworkState.memb_ensures hE m).bind fun cn _ => ?_
  refine (NetworkState.modifyNick_ensures hE _ _).bind ?_
  rintro _ ⟨n, hn, rfl⟩
  refine (NetworkState.nick_ensures hE _).bind fun me _ => ?_
  refine (irccmp_ensures hE _ _ _).bind fun _ _ => ?_
  exact (e₁.edits.trans e₂).tail (.name hn (.hostmask n origin))

theorem handleJoin_edits (hE : ∀ e, e ≠ .modeIndex → E e) (h : Graph s)
    (hFF : ∀ o, l.origin = some o → PrefixFF s.info (o.takeWhile (· ≠ chr '!')) → E .modeIndex) :
    Ensures (handleJoin s l) (Edits s) E := by
  unfold handleJoin
  split
  · exact .refl
  rename_i o ho
  refine (lineGetNick_ensures hE).bind ?_
  rintro nick ⟨o', ho', rfl⟩
  refine (IrcLine.argStr_ensures hE 1).bind fun channels _ => ?_
  refine Ensures.foldlM (fun s' name _ he => ?_) .refl
  have hp : PrefixFF s'.info (o'.takeWhile (· ≠ chr '!')) → E .modeIndex := by
    rw [he.info_eq]
    exact hFF o' ho'
  exact (joinChannel_edits hE (he.graph h) hp name).imp fun _ => he.trans

/-- A found membership is freed. -/
theorem freeFound_silent (h : Graph s) {c m : Ref} (hc : c ∈ s.channels) {ch : ChannelState}
    (hch : s.chanHeap c = some ch) (hm : m ∈ ch.nicks) :
    Ensures (freeChannelNick s m) (fun s' => Silent s s' ∧ s'.channels = s.channels) E := by
  obtain ⟨cn, gn, hl, -⟩ := h.link_of_chan hc hch hm
  exact ensures_of_eq_ok (freeChannelNick_eq h hl) ⟨.of_trims (removeMemb_trims h hl), removeMemb_channels⟩

theorem freeChannelState_silent (h : Graph s) {c : Ref} (hc : c ∈ s.channels) :
    Ensures (freeChannelState s c) (Silent s) E := by
  obtain ⟨s', hs', he⟩ := freeChannelState_ok h hc
  exact ensures_of_eq_ok hs' (.of_trims he)

theorem leaveChannel_silent (hE : ∀ e, e ≠ .modeIndex → E e) (h : Graph s) {c : Ref}
    (hc : c ∈ s.channels) (nick : Str) : Ensures (leaveChannel s c nick) (Silent s) E := by
  refine (NetworkState.nick_ensures hE _).bind fun me _ => ?_
  refine (ircEq_ensures hE _ _ _).bind fun b _ => ?_
  split
  · exact freeChannelState_silent h hc
  · exact .refl

theorem partChannel_silent (hE : ∀ e, e ≠ .modeIndex → E e) (h : Graph s) (nick name : Str) :
    Ensures (partChannel nick s name) (Silent s) E := by
  refine (findChannel_ensures hE name).bind fun r hr => ?_
  cases r with
  | none => exact .refl
  | some c =>
      refine (findChannelNick_ensures hE c nick).bind fun m hm => ?_
      have hfree : Ensures (freeFound s m) (fun s' => Silent s s' ∧ s'.channels = s.channels) E := by
        cases m with
        | none => exact ⟨.refl, rfl⟩
        | some m =>
            obtain ⟨ch, hch, hmem⟩ := hm m rfl
            exact freeFound_silent h (hr c rfl) hch hmem
      refine hfree.bind ?_
      rintro s₁ ⟨e₁, hcs⟩
      exact (leaveChannel_silent hE (e₁.graph h) (hcs ▸ hr c rfl) nick).imp fun _ => e₁.trans

theorem handlePart_silent (hE : ∀ e, e ≠ .modeIndex → E e) (h : Graph s) :
    Ensures (handlePart s l) (Silent s) E := by
  unfold handlePart
  split
  · exact .refl
  refine (lineGetNick_ensures hE).bind fun nick _ => ?_
  refine (IrcLine.argStr_ensures hE 1).bind fun channels _ => ?_
  refine Ensures.foldlM (fun s' name _ he => ?_) .refl
  exact (partChannel_silent hE (he.graph h) nick name).imp fun _ => he.trans

theorem kickChannel_silent (hE : ∀ e, e ≠ .modeIndex → E e) (h : Graph s) (p : Str × Str) :
    Ensures (kickChannel s p) (Silent s) E := by
  refine (findChannel_ensures hE p.1).bind fun r hr => ?_
  cases r with
  | none => exact .refl
  | some c =>
      refine (findChannelNick_ensures hE c p.2).bind fun m hm => ?_
      cases m with
      | none => exact .refl
      | some m =>
          obtain ⟨ch, hch, hmem⟩ := hm m rfl
          refine (freeFound_silent h (hr c rfl) hch hmem).bind ?_
          rintro s₁ ⟨e₁, hcs⟩
          exact (leaveChannel_silent hE (e₁.graph h) (hcs ▸ hr c rfl) p.2).imp fun _ => e₁.trans

theorem handleKick_silent (hE : ∀ e, e ≠ .modeIndex → E e) (h : Graph s) :
    Ensures (handleKick s l) (Silent s) E := by
  unfold handleKick
  split
  · exact .refl
  refine (IrcLine.argStr_ensures hE 1).bind fun channels _ => ?_
  refine (IrcLine.argStr_ensures hE 2).bind fun nicks _ => ?_
  refine Ensures.foldlM (fun s' p _ he => ?_) .refl
  exact (kickChannel_silent hE (he.graph h) p).imp fun _ => he.trans

theorem handleQuit_silent (hE : ∀ e, e ≠ .modeIndex → E e) (h : Graph s) :
    Ensures (handleQuit s l) (Silent s) E := by
  unfold handleQuit
  split
  · exact .refl
  refine (lineGetNick_ensures hE).bind fun nick _ => ?_
  refine (findNetworkNick_ensures hE nick).bind fun r hr => ?_
  cases r with
  | none => exact .refl
  | some g =>
      dsimp only
      split
      · refine (NetworkState.nick_ensures hE _).bind fun me hme => ?_
        obtain ⟨s', hs', he, -⟩ := freeMemberships_ok h (.inl rfl) hme (h.me_query me hme)
        exact ensures_of_eq_ok hs' (.of_trims he)
      · rename_i hne
        obtain ⟨s', hs', he⟩ := freeNetworkNick_ok h ((hr g rfl).resolve_left hne)
        exact ensures_of_eq_ok hs' (.of_trims he)

/-! ### Fields of a channel -/

/-- A function that leaves the name, the members and the network of a channel alone, and sets no
slot 0. -/
structure KeepsChannel (f : ChannelState → ChannelState) : Prop where
  name : ∀ c, (f c).name = c.name
  nicks : ∀ c, (f c).nicks = c.nicks
  network : ∀ c, (f c).network = c.network
  modes : ∀ c, KeepsNul c.modes (f c).modes

theorem modifyChan_silent (hE : ∀ e, e ≠ .modeIndex → E e) (c : Ref)
    {f : ChannelState → ChannelState} (hf : KeepsChannel f) :
    Ensures (s.modifyChan c f) (fun s' => Silent s s' ∧ s'.channels = s.channels) E := by
  refine (NetworkState.modifyChan_ensures hE c f).imp ?_
  rintro _ ⟨ch, hch, rfl⟩
  exact ⟨.chan hch (hf.name ch) (hf.nicks ch) (hf.network ch) (hf.modes ch), rfl⟩

theorem handleTopic_silent (hE : ∀ e, e ≠ .modeIndex → E e) (now : Long) :
    Ensures (handleTopic now s l) (Silent s) E := by
  refine (IrcLine.argStr_ensures hE 1).bind fun name _ => ?_
  refine (findChannel_ensures hE name).bind fun r _ => ?_
  split
  · exact .refl
  cases r with
  | none => exact hE .null (by decide)
  | some c =>
      refine (IrcLine.arg_ensures hE 2).bind fun topic _ => ?_
      refine (lineGetNick_ensures hE).bind fun nick _ => ?_
      refine (modifyChan_silent hE c ?_).imp fun _ => And.left
      exact ⟨fun _ => rfl, fun _ => rfl, fun _ => rfl, fun _ => KeepsNul.refl _⟩

theorem handle332_silent (hE : ∀ e, e ≠ .modeIndex → E e) :
    Ensures (handle332 s l) (Silent s) E := by
  refine (IrcLine.argStr_ensures hE 2).bind fun name _ => ?_
  refine (findChannel_ensures hE name).bind fun r _ => ?_
  cases r with
  | none => exact .refl
  | some c =>
      refine (IrcLine.arg_ensures hE 3).bind fun topic _ => ?_
      refine (modifyChan_silent hE c ?_).imp fun _ => And.left
      exact ⟨fun _ => rfl, fun _ => rfl, fun _ => rfl, fun _ => KeepsNul.refl _⟩

theorem handle333_silent (hE : ∀ e, e ≠ .modeIndex → E e) :
    Ensures (handle333 s l) (Silent s) E := by
  refine (IrcLine.argStr_ensures hE 2).bind fun name _ => ?_
  refine (findChannel_ensures hE name).bind fun r _ => ?_
  cases r with
  | none => exact .refl
  | some c =>
      refine (IrcLine.argStr_ensures hE 4).bind fun time _ => ?_
      refine (IrcLine.arg_ensures hE 3).bind fun by' _ => ?_
      refine (modifyChan_silent hE c ?_).imp fun _ => And.left
      exact ⟨fun _ => rfl, fun _ => rfl, fun _ => rfl, fun _ => KeepsNul.refl _⟩

theorem handleNoTopic_silent (hE : ∀ e, e ≠ .modeIndex → E e) :
    Ensures (handleNoTopic s l) (Silent s) E := by
  refine (IrcLine.argStr_ensures hE 1).bind fun name _ => ?_
  refine (findChannel_ensures hE name).bind fun r _ => ?_
  cases r with
  | none => exact .refl
  | some c =>
      refine (modifyChan_silent hE c ?_).imp fun _ => And.left
      exact ⟨fun _ => rfl, fun _ => rfl, fun _ => rfl, fun _ => KeepsNul.refl _⟩

theorem handleEndNames_silent (hE : ∀ e, e ≠ .modeIndex → E e) :
    Ensures (handleEndNames s l) (Silent s) E := by
  refine (IrcLine.argStr_ensures hE 2).bind fun name _ => ?_
  refine (findChannel_ensures hE name).bind fun r _ => ?_
  cases r with
  | none => exact .refl
  | some c =>
      refine (modifyChan_silent hE c ?_).imp fun _ => And.left
      exact ⟨fun _ => rfl, fun _ => rfl, fun _ => rfl, fun _ => KeepsNul.refl _⟩

theorem handle329_silent (hE : ∀ e, e ≠ .modeIndex → E e) :
    Ensures (handle329 s l) (Silent s) E := by
  refine (IrcLine.argStr_ensures hE 2).bind fun name _ => ?_
  refine (findChannel_ensures hE name).bind fun r _ => ?_
  cases r with
  | none => exact .refl
  | some c =>
      refine (IrcLine.argStr_ensures hE 3).bind fun time _ => ?_
      refine (modifyChan_silent hE c ?_).imp fun _ => And.left
      exact ⟨fun _ => rfl, fun _ => rfl, fun _ => rfl, fun _ => KeepsNul.refl _⟩

/-- The letters of the three listings have a slot. -/
theorem MaskList.letter_slot (k : MaskList) : k.letter ≠ byteFF := by
  cases k <;> decide

theorem MaskList.keeps_setStarted (k : MaskList) (v : Bool) :
    KeepsChannel fun ch => k.setStarted ch v := by
  cases k <;> exact ⟨fun _ => rfl, fun _ => rfl, fun _ => rfl, fun _ => KeepsNul.refl _⟩

theorem maskSetter_ensures (hE : ∀ e, e ≠ .modeIndex → E e) (k : MaskList) :
    Ensures (maskSetter l k) (fun _ => True) E := by
  unfold maskSetter
  split
  · refine (IrcLine.arg_ensures hE 4).bind fun by' _ => ?_
    split
    · trivial
    · exact (IrcLine.arg_ensures hE 5).bind fun _ _ => trivial
  · trivial

theorem handleMaskEntry_silent (hE : ∀ e, e ≠ .modeIndex → E e) (k : MaskList) :
    Ensures (handleMaskEntry k s l) (Silent s) E := by
  refine (IrcLine.argStr_ensures hE 2).bind fun name _ => ?_
  refine (findChannel_ensures hE name).bind fun r _ => ?_
  cases r with
  | none => exact .refl
  | some c =>
      refine (modeSlot_ensures fun e => absurd e k.letter_slot).bind fun i _ => ?_
      refine (IrcLine.arg_ensures hE 3).bind fun mask _ => ?_
      refine (maskSetter_ensures hE k).bind ?_
      rintro ⟨by', at'⟩ -
      refine (modifyChan_silent hE c ?_).imp fun _ => And.left
      have hk := k.keeps_setStarted true
      exact ⟨hk.name, hk.nicks, hk.network, hk.modes⟩

theorem handleEndMasks_silent (hE : ∀ e, e ≠ .modeIndex → E e) (k : MaskList) :
    Ensures (handleEndMasks k s l) (Silent s) E := by
  refine (IrcLine.argStr_ensures hE 2).bind fun name _ => ?_
  refine (findChannel_ensures hE name).bind fun r _ => ?_
  cases r with
  | none => exact .refl
  | some c =>
      refine (modeSlot_ensures fun e => absurd e k.letter_slot).bind fun i _ => ?_
      refine (modifyChan_silent hE c ?_).imp fun _ => And.left
      have hk := k.keeps_setStarted false
      exact ⟨hk.name, hk.nicks, hk.network, hk.modes⟩

/-- An argument of a line names a channel of the state. -/
def OnChannel (s : NetworkState) (l : IrcLine) (i : ℕ) : Prop :=
  ∃ name c, l.args[i]? = some name ∧ findChannel s name = .ok (some c)

theorem handle324_silent (hE : ∀ e, e ≠ .modeIndex → E e)
    (hFF : ∀ w, OnChannel s l 2 → l.args[3]? = some w → SignedFF w → E .modeIndex) :
    Ensures (handle324 s l) (Silent s) E := by
  refine (IrcLine.argStr_ensures hE 2).bind fun name hname => ?_
  refine (findChannel_ensures hE name).with_eq.bind ?_
  rintro r ⟨hr, -⟩
  cases r with
  | none => exact .refl
  | some c =>
      refine (IrcLine.argStr_ensures hE 3).bind fun w hw => ?_
      refine (string2mode_ensures (hFF w ⟨name, c, hname, hr⟩ hw) modesClear).bind ?_
      rintro ⟨modes, b⟩ hm
      refine (modifyChan_silent hE c ?_).imp fun _ => And.left
      exact ⟨fun _ => rfl, fun _ => rfl, fun _ => rfl, fun _ h => by cases hm h⟩

/-! ### Names -/

theorem restartNames_silent (hE : ∀ e, e ≠ .modeIndex → E e) (h : Graph s) {c : Ref}
    (hc : c ∈ s.channels) :
    Ensures (restartNames s c) (fun s' => Silent s s' ∧ s'.channels = s.channels) E := by
  refine (NetworkState.chan_ensures hE c).bind fun ch hch => ?_
  split
  · exact ⟨.refl, rfl⟩
  · obtain ⟨s₁, hs₁, e₁, hcs₁, -⟩ := freeNames_ok h hc hch
    rw [hs₁]
    refine (modifyChan_silent hE c ?_).imp fun s' hs' => ⟨(Silent.of_trims e₁).trans hs'.1, hs'.2.trans hcs₁⟩
    exact ⟨fun _ => rfl, fun _ => rfl, fun _ => rfl, fun _ => KeepsNul.refl _⟩

/-- A 353 line for a channel of the state has a name whose prefix character stands for the mode
`0xFF`. -/
def NamesFF (s : NetworkState) (l : IrcLine) : Prop :=
  OnChannel s l 3 ∧
    ∃ w, l.args[4]? = some w ∧ ∃ name ∈ gStrsplit w (chr ' '), PrefixFF s.info name

theorem handleNamreply_edits (hE : ∀ e, e ≠ .modeIndex → E e) (h : Graph s)
    (hFF : NamesFF s l → E .modeIndex) : Ensures (handleNamreply s l) (Edits s) E := by
  refine (IrcLine.argStr_ensures hE 3).bind fun chan hchan => ?_
  refine (findChannel_ensures hE chan).with_eq.bind ?_
  rintro r ⟨hfind, hr⟩
  cases r with
  | none => exact .refl
  | some c =>
      refine (IrcLine.argStr_ensures hE 4).bind fun names hnames => ?_
      refine (IrcLine.argStr_ensures hE 2).bind fun mode _ => ?_
      have hmode : KeepsChannel fun ch => { ch with mode := mode.head? } :=
        ⟨fun _ => rfl, fun _ => rfl, fun _ => rfl, fun _ => KeepsNul.refl _⟩
      refine (modifyChan_silent hE c hmode).bind ?_
      rintro s₁ ⟨e₁, hcs₁⟩
      refine (restartNames_silent hE (e₁.graph h) (hcs₁ ▸ hr c rfl)).bind ?_
      rintro s₂ ⟨e₂, hcs₂⟩
      have e₁₂ := (e₁.trans e₂).edits
      have hc₂ : c ∈ s₂.channels := hcs₂ ▸ hcs₁ ▸ hr c rfl
      -- the channel stays listed while its members are added
      have loop := Ensures.foldlM (f := addName c) (l := gStrsplit names (chr ' ')) (b := s₂)
        (I := fun s' => Edits s s' ∧ s'.channels = s₂.channels) (E := E) ?_ ⟨e₁₂, rfl⟩
      · exact loop.imp fun _ => And.left
      rintro s' name hname ⟨he, hcs⟩
      unfold addName
      split
      · exact ⟨he, hcs⟩
      have hp : PrefixFF s'.info name → E .modeIndex := by
        rw [he.info_eq]
        exact fun hp => hFF ⟨⟨chan, c, hchan, hfind⟩, names, hnames, name, hname, hp⟩
      refine (findAddChannelNick_edits hE (he.graph h) (hcs ▸ hc₂) hp).bind ?_
      rintro ⟨m, s''⟩ ⟨he', hcs', -⟩
      exact ⟨he.trans he', hcs'.trans hcs⟩

/-! ### Users -/

theorem handleWhoreply_edits (hE : ∀ e, e ≠ .modeIndex → E e) (now : Long) :
    Ensures (handleWhoreply now s l) (Edits s) E := by
  refine (IrcLine.argStr_ensures hE 6).bind fun nick _ => ?_
  refine (findAddNetworkNick_edits hE nick).bind ?_
  rintro ⟨g, s₁⟩ ⟨e₁, hk, -⟩
  refine (IrcLine.argStr_ensures hE 3).bind fun username _ => ?_
  refine (IrcLine.argStr_ensures hE 4).bind fun host _ => ?_
  refine (NetworkState.modifyNick_ensures hE _ _).bind ?_
  rintro _ ⟨n, hn, rfl⟩
  have e₂ := e₁.tail (.name hn (.data n nick username host))
  refine (IrcLine.argStr_ensures hE 8).bind fun trailing _ => ?_
  refine (IrcLine.argStr_ensures hE 5).bind fun server _ => ?_
  refine (NetworkState.modifyNick_ensures hE _ _).bind ?_
  rintro _ ⟨n', hn', rfl⟩
  have e₃ := e₂.tail
    (.quiet (.nick hn' (.who n' (toInt (strtol trailing 10).1) (strtol trailing 10).2 server)))
  refine (IrcLine.argStr_ensures hE 2).bind fun name _ => ?_
  refine (findChannel_ensures hE name).bind fun r _ => ?_
  cases r with
  | none => exact e₃
  | some c =>
      refine (NetworkState.nick_ensures hE g).bind fun n'' _ => ?_
      split
      · exact hE .assertion (by decide)
      refine (findChannelNick_ensures hE c _).bind fun m _ => ?_
      cases m with
      | none => exact e₃
      | some m =>
          refine (NetworkState.memb_ensures hE m).bind fun cn hcn => ?_
          refine (IrcLine.arg_ensures hE 7).bind fun flags _ => ?_
          exact e₃.tail (.quiet (.memb hcn rfl rfl (KeepsNul.refl _)))

theorem handlePrivmsg_edits (hE : ∀ e, e ≠ .modeIndex → E e) :
    Ensures (handlePrivmsg s l) (Edits s) E := by
  unfold handlePrivmsg
  split
  · exact .refl
  refine (IrcLine.argStr_ensures hE 1).bind fun target _ => ?_
  refine (NetworkState.nick_ensures hE _).bind fun me _ => ?_
  refine (ircEq_ensures hE _ _ _).bind fun b _ => ?_
  split
  · refine (lineGetNick_ensures hE).bind fun nick _ => ?_
    refine (findAddNetworkNick_edits hE nick).bind ?_
    rintro ⟨g, s₁⟩ ⟨e₁, -, -⟩
    refine (NetworkState.modifyNick_ensures hE _ _).imp ?_
    rintro _ ⟨n, hn, rfl⟩
    exact e₁.tail (.quiet (.nick hn (.query n)))
  · exact .refl

theorem handleNick_edits (hE : ∀ e, e ≠ .modeIndex → E e) :
    Ensures (handleNick s l) (Edits s) E := by
  unfold handleNick
  split
  · exact .refl
  refine (lineGetNick_ensures hE).bind fun nick _ => ?_
  refine (findAddNetworkNick_edits hE nick).bind ?_
  rintro ⟨g, s₁⟩ ⟨e₁, -, -⟩
  refine (IrcLine.argStr_ensures hE 1).bind fun new _ => ?_
  refine (NetworkState.modifyNick_ensures hE _ _).imp ?_
  rintro _ ⟨n, hn, rfl⟩
  exact e₁.tail (.name hn (.nick n new))

theorem userhost_edits (hE : ∀ e, e ≠ .modeIndex → E e) (user : Str) :
    Ensures (userhost s user) (Edits s) E := by
  unfold userhost
  split
  · rename_i nick rest _ _
    refine (findAddNetworkNick_edits hE nick).bind ?_
    rintro ⟨g, s₁⟩ ⟨e₁, -, -⟩
    cases rest with
    | nil => exact hE .overread (by decide)
    | cons b uh =>
        refine (NetworkState.modifyNick_ensures hE _ _).imp ?_
        rintro _ ⟨n, hn, rfl⟩
        exact e₁.tail (.name hn (.hostmask n _))
  · exact .refl

theorem handle302_edits (hE : ∀ e, e ≠ .modeIndex → E e) :
    Ensures (handle302 s l) (Edits s) E := by
  refine (IrcLine.argStr_ensures hE 2).bind fun users _ => ?_
  refine Ensures.foldlM (fun s' user _ he => ?_) .refl
  exact (userhost_edits hE user).imp fun _ => he.trans

/-! ### Modes -/

/-- The character `0xFF` reaches a mode table of a channel. -/
def ChanmodeFF (info : NetworkInfo) : Prop :=
  ∃ t, networkChanmodeType byteFF info = .ok t ∧
    (t ≠ .unknown ∨ isPrefixMode info byteFF = true)

theorem changeMasks_ensures (hE : ∀ e, e ≠ .modeIndex → E e) (now : Long) (by' : Option Ref)
    (set : Bool) (mask : Str) (old : List NicklistEntry) :
    Ensures (changeMasks now by' set mask s old) (fun _ => True) E := by
  unfold changeMasks
  split
  · have hby : Ensures (setterNick s by') (fun _ => True) E := by
      cases by' with
      | none => trivial
      | some b => exact (NetworkState.nick_ensures hE b).bind fun _ _ => trivial
    exact hby.bind fun _ _ => trivial
  · induction old with
    | nil => trivial
    | cons e old ih =>
        unfold nicklistRemoveEntry
        split
        · exact hE .null (by decide)
        · split
          · trivial
          · exact ih.bind fun _ _ => trivial

theorem networkChanmodeType_ensures (hE : ∀ e, e ≠ .modeIndex → E e) (b : Byte)
    (info : NetworkInfo) :
    Ensures (networkChanmodeType b info) (fun t => networkChanmodeType b info = .ok t) E := by
  have aux : ∀ (ts : List ChanmodeType) (gs : List Str),
      Ensures (chanmodeTypeFrom b ts gs) (fun _ => True) E := by
    intro ts
    induction ts with
    | nil => exact fun _ => trivial
    | cons t ts ih =>
        intro gs
        cases gs with
        | nil => exact hE .null (by decide)
        | cons g gs =>
            unfold chanmodeTypeFrom
            split
            · trivial
            · exact ih gs
  have h : Ensures (networkChanmodeType b info) (fun _ => True) E := aux _ _
  cases hx : networkChanmodeType b info with
  | ok t => rfl
  | error e =>
      rw [hx] at h
      exact h

theorem setOption_silent (hE : ∀ e, e ≠ .modeIndex → E e) {b : Byte}
    (hb : b = byteFF → E .modeIndex) (c : Ref) (v : Option Str) :
    Ensures (setOption c b v s) (Silent s) E := by
  refine (modeSlot_ensures hb).bind fun i _ => ?_
  refine (modifyChan_silent hE c ?_).imp fun _ => And.left
  exact ⟨fun _ => rfl, fun _ => rfl, fun _ => rfl, fun _ => KeepsNul.refl _⟩

theorem changeNicklist_silent (hE : ∀ e, e ≠ .modeIndex → E e) {b : Byte}
    (hb : b = byteFF → E .modeIndex) (now : Long) (by' : Option Ref) (c : Ref) (set : Bool)
    (optArg : Option Str) :
    Ensures (changeNicklist now by' c set b optArg s) (fun r => Silent s r.1) E := by
  cases optArg with
  | none => exact .refl
  | some mask =>
      refine (modeSlot_ensures hb).bind fun i _ => ?_
      refine (NetworkState.chan_ensures hE c).bind fun ch hch => ?_
      split
      · refine (changeMasks_ensures hE now by' set mask _).bind fun new _ => ?_
        exact .chan hch rfl rfl rfl (KeepsNul.refl _)
      · exact .refl

theorem changeSetting_silent (hE : ∀ e, e ≠ .modeIndex → E e) {b : Byte}
    (hb : b = byteFF → E .modeIndex) (c : Ref) (set : Bool) (optArg : Option Str) :
    Ensures (changeSetting c set b optArg s) (fun r => Silent s r.1) E := by
  unfold changeSetting
  split
  · cases optArg with
    | none => exact .refl
    | some v => exact (setOption_silent hE hb c _).bind fun _ h => h
  · exact (setOption_silent hE hb c _).bind fun _ h => h

theorem changePrefixMode_silent (hE : ∀ e, e ≠ .modeIndex → E e) {b : Byte}
    (hb : b = byteFF → E .modeIndex) (c : Ref) (set : Bool) (optArg : Option Str) :
    Ensures (changePrefixMode c set b optArg s) (fun r => Silent s r.1) E := by
  cases optArg with
  | none => exact .refl
  | some nick =>
      refine (findChannelNick_ensures hE c nick).bind fun r _ => ?_
      cases r with
      | none => exact .refl
      | some m =>
          refine (NetworkState.memb_ensures hE m).bind fun cn hcn => ?_
          refine (modesChangeMode_ensures hb cn.modes set).bind fun modes hm => ?_
          exact .memb hcn hm

theorem changeBool_silent (hE : ∀ e, e ≠ .modeIndex → E e) {b : Byte}
    (hb : b = byteFF → E .modeIndex) (c : Ref) (set : Bool) :
    Ensures (changeBool c set b s) (fun r => Silent s r.1) E := by
  refine (NetworkState.chan_ensures hE c).bind fun ch hch => ?_
  refine (modesChangeMode_ensures hb ch.modes set).bind fun modes hm => ?_
  exact .chan hch rfl rfl rfl hm

/-- A mode character that reaches a table of the channel has a slot there, or is `0xFF`. -/
theorem channelStateChangeMode_silent (hE : ∀ e, e ≠ .modeIndex → E e) {b : Byte}
    (hFF : b = byteFF → ChanmodeFF s.info → E .modeIndex) (now : Long) (by' : Option Ref) (c : Ref)
    (set : Bool) (optArg : Option Str) :
    Ensures (channelStateChangeMode now by' c set b optArg s) (fun r => Silent s r.1) E := by
  refine (networkChanmodeType_ensures hE b s.info).bind fun t ht => ?_
  have typed : t ≠ .unknown → b = byteFF → E .modeIndex := by
    rintro hne rfl
    exact hFF rfl ⟨t, ht, .inl hne⟩
  have prefixed : isPrefixMode s.info b = true → b = byteFF → E .modeIndex := by
    rintro hp rfl
    exact hFF rfl ⟨t, ht, .inr hp⟩
  split
  · rename_i e
    exact changeNicklist_silent hE (typed (by rw [e]; decide)) now by' c set optArg
  split
  · rename_i e
    exact changeSetting_silent hE (typed (by rcases e with e | e <;> rw [e] <;> decide)) c set optArg
  split
  · rename_i hp
    exact changePrefixMode_silent hE (prefixed hp) c set optArg
  split
  · rename_i e
    exact changeBool_silent hE (typed (by rw [e]; decide)) c set
  · exact .refl

theorem channelModeLoop_silent (hE : ∀ e, e ≠ .modeIndex → E e) {w : Str}
    (hFF : byteFF ∈ w → ChanmodeFF s.info → E .modeIndex) (now : Long) (by' : Option Ref) (c : Ref)
    (t : Bool) (arg : ℕ) : Ensures (channelModeLoop now l by' c w t arg s) (Silent s) E := by
  induction w generalizing t arg s with
  | nil => exact .refl
  | cons b w ih =>
      have hFF' : byteFF ∈ w → ChanmodeFF s.info → E .modeIndex :=
        fun hw => hFF (List.mem_cons_of_mem _ hw)
      by_cases hsign : b = chr '+' ∨ b = chr '-'
      · rw [channelModeLoop_sign hsign]
        exact ih hFF' _ arg
      obtain ⟨hp, hm⟩ := not_or.mp hsign
      rw [channelModeLoop_change hp hm]
      refine (IrcLine.arg_ensures hE arg).bind fun opt _ => ?_
      have hb : b = byteFF → ChanmodeFF s.info → E .modeIndex := by
        rintro rfl
        exact hFF List.mem_cons_self
      refine (channelStateChangeMode_silent hE hb now by' c t opt).bind ?_
      rintro ⟨s₁, ret⟩ e₁
      cases ret with
      | none => exact e₁
      | some n =>
          have hi : s₁.info = s.info := e₁.edits.info_eq
          exact (ih (hi ▸ hFF') t _).imp fun _ => e₁.trans

/-- A MODE line changes a mode with the character `0xFF`: one of a nick, or one that reaches a
table of a channel of the state. -/
def ModeFF (s : NetworkState) (l : IrcLine) : Prop :=
  ∃ target change, l.args[1]? = some target ∧ l.args[2]? = some change ∧ byteFF ∈ change ∧
    (isChannelname target s.info = .ok true → OnChannel s l 1 ∧ ChanmodeFF s.info)

theorem isChannelname_ensures (hE : ∀ e, e ≠ .modeIndex → E e) (name : Str) (info : NetworkInfo) :
    Ensures (isChannelname name info) (fun b => isChannelname name info = .ok b) E := by
  unfold isChannelname
  split
  · exact hE .assertion (by decide)
  · split <;> rfl

theorem handleMode_edits (hE : ∀ e, e ≠ .modeIndex → E e)
    (hFF : ModeFF s l → E .modeIndex) (now : Long) :
    Ensures (handleMode now s l) (Edits s) E := by
  refine (IrcLine.argStr_ensures hE 1).bind fun target htarget => ?_
  refine (IrcLine.argStr_ensures hE 2).bind fun change hchange => ?_
  refine (isChannelname_ensures hE target s.info).bind fun b hb => ?_
  split
  · rename_i ht
    rw [ht] at hb
    refine (findChannel_ensures hE target).with_eq.bind ?_
    rintro r ⟨hr, -⟩
    cases r with
    | none => exact .refl
    | some c =>
        refine (lineGetNick_ensures hE).bind fun byName _ => ?_
        refine (findNetworkNick_ensures hE byName).bind fun by' _ => ?_
        refine (channelModeLoop_silent hE ?_ now by' c true 3).imp fun _ => Silent.edits
        intro hmem hc
        exact hFF ⟨target, change, htarget, hchange, hmem, fun _ => ⟨⟨target, c, htarget, hr⟩, hc⟩⟩
  · rename_i hf
    have hFF' : byteFF ∈ change → E .modeIndex := fun hmem => by
      refine hFF ⟨target, change, htarget, hchange, hmem, fun ht => ?_⟩
      rw [ht] at hb
      cases hb
      exact absurd rfl hf
    refine (findAddNetworkNick_edits hE target).bind ?_
    rintro ⟨g, s₁⟩ ⟨e₁, -, -⟩
    refine (NetworkState.nick_ensures hE g).bind fun n hn => ?_
    refine (changeModes_ensures hFF' true n.modes).bind fun modes hm => ?_
    exact e₁.tail (.quiet (.nick hn (.modes n hm)))

theorem handleUmodeis_silent (hE : ∀ e, e ≠ .modeIndex → E e)
    (hFF : ∀ w, l.args[1]? = some w → SignedFF w → E .modeIndex) :
    Ensures (handleUmodeis s l) (Silent s) E := by
  refine (IrcLine.argStr_ensures hE 1).bind fun w hw => ?_
  refine (string2mode_ensures (hFF w hw) modesClear).bind ?_
  rintro ⟨modes, b⟩ hm
  refine (NetworkState.modifyNick_ensures hE _ _).imp ?_
  rintro _ ⟨n, hn, rfl⟩
  exact .nick hn fun h => by cases hm h

end

/-! ### One step -/

/-- The number of arguments `irc_commands` asks for. -/
def Command.minArgs : Command → ℕ
  | .quit => 0
  | .join | .part | .nick | .c001 | .umodeis | .noTopic | .endWho | .nowaway | .unaway => 1
  | .kick | .topic | .privmsg | .mode | .c302 | .endNames | .banlistEntry | .endBanlist
  | .invitelistEntry | .endInvitelist | .exceptlistEntry | .endExceptlist => 2
  | .c005 | .c324 | .c329 | .c332 | .c333 => 3
  | .namreply => 4
  | .c004 => 5
  | .whoreply => 8

/-- A selected handler gets the arguments its entry asks for. -/
theorem commandOf_argc {l : IrcLine} {k : Command} (h : commandOf l = some k) :
    k.minArgs < l.argc := by
  have table : ∀ e ∈ ircCommands, e.2.1 = e.2.2.minArgs := by decide
  unfold commandOf at h
  split at h
  · cases h
  split at h
  · cases h
  rename_i m k' hfind
  split at h
  · rename_i hlt
    cases h
    exact table _ (List.mem_of_find?_eq_some hfind) ▸ hlt
  · cases h

/-- What a line can do to a state. -/
inductive Step (s : NetworkState) (l : IrcLine) : NetworkState → Prop where
  | edits {s' : NetworkState} : Edits s s' → Step s l s'
  | rename {n : NetworkNick} {x : Str} : commandOf l = some .c001 → l.args[1]? = some x →
      s.nickHeap meRef = some n → Step s l (s.setNick meRef { n with nick := some x })
  | info (i : NetworkInfo) : commandOf l = some .c004 ∨ commandOf l = some .c005 →
      Step s l { s with info := i }

/-- No character `0xFF` of the line reaches a mode table. -/
structure ModeSafe (s : NetworkState) (l : IrcLine) : Prop where
  join : commandOf l = some .join → ∀ o, l.origin = some o →
    ¬ PrefixFF s.info (o.takeWhile (· ≠ chr '!'))
  namreply : commandOf l = some .namreply → ¬ NamesFF s l
  mode : commandOf l = some .mode → ¬ ModeFF s l
  umodeis : commandOf l = some .umodeis → ∀ w, l.args[1]? = some w → ¬ SignedFF w
  c324 : commandOf l = some .c324 → OnChannel s l 2 → ∀ w, l.args[3]? = some w → ¬ SignedFF w

section
variable {s : NetworkState} {l : IrcLine} {E : Fault → Prop}

theorem handle001_step (hE : ∀ e, e ≠ .modeIndex → E e) (h : commandOf l = some .c001) :
    Ensures (handle001 s l) (Step s l) E := by
  have hlt : 1 < l.argc := commandOf_argc h
  obtain ⟨x, hx⟩ : ∃ x, l.args[1]? = some x := ⟨_, List.getElem?_eq_getElem hlt⟩
  unfold handle001 IrcLine.arg
  rw [if_pos hlt.le, hx]
  refine (NetworkState.modifyNick_ensures hE _ _).imp ?_
  rintro _ ⟨n, hn, rfl⟩
  exact .rename h hx hn

/-- A 004 line replaces what the server announced, and nothing else. -/
theorem handle004_info (hE : ∀ e, e ≠ .modeIndex → E e) :
    Ensures (handle004 s l) (fun s' => ∃ i, s' = { s with info := i }) E := by
  refine (IrcLine.arg_ensures hE 4).bind fun userModes _ => ?_
  refine (IrcLine.arg_ensures hE 5).bind fun channelModes _ => ?_
  refine (IrcLine.arg_ensures hE 2).bind fun server _ => ?_
  exact ⟨_, rfl⟩

theorem applyInfoKey_ensures (hE : ∀ e, e ≠ .modeIndex → E e) (n : NetworkInfo)
    (val : Option Str) (k : InfoKey) : Ensures (applyInfoKey n val k) (fun _ => True) E := by
  have null := hE .null (by decide)
  have overread := hE .overread (by decide)
  cases k with
  | casemapping | text | flag => trivial
  | keylen | silence | chanmodes | elist => cases val <;> trivial
  | num k =>
      simp only [applyInfoKey]
      split <;> trivial
  | mode m d =>
      simp only [applyInfoKey]
      split <;> trivial
  | extban =>
      cases val with
      | none => trivial
      | some v =>
          unfold applyInfoKey
          dsimp only
          split
          · exact overread
          · trivial
  | prefixes =>
      cases val with
      | none => exact null
      | some v =>
          unfold applyInfoKey
          dsimp only
          split <;> trivial

theorem networkInfoParse_ensures (hE : ∀ e, e ≠ .modeIndex → E e) (n : NetworkInfo) (w : Str) :
    Ensures (networkInfoParse n w) (fun _ => True) E := by
  unfold networkInfoParse
  split
  · exact applyInfoKey_ensures hE _ _ _
  · trivial

/-- A 005 line replaces what the server announced, and nothing else. -/
theorem handle005_info (hE : ∀ e, e ≠ .modeIndex → E e) :
    Ensures (handle005 s l) (fun s' => ∃ i, s' = { s with info := i }) E := by
  have loop : Ensures ((l.args.dropLast.drop 2).foldlM networkInfoParse s.info) (fun _ => True) E :=
    Ensures.foldlM (fun n w _ _ => networkInfoParse_ensures hE n w) trivial
  exact loop.bind fun i _ => ⟨i, rfl⟩

/-- The commands whose handlers name nobody. -/
def Command.isQuiet : Command → Bool
  | .join | .nick | .privmsg | .mode | .c302 | .namreply | .whoreply => false
  | .c001 | .c004 | .c005 => false
  | _ => true

theorem handler_silent (h : Graph s) {k : Command} (hk : commandOf l = some k)
    (hq : k.isQuiet = true) (now : Long) :
    Ensures (k.handler now s l) (Silent s) (fun e => ModeSafe s l → e ≠ .modeIndex) := by
  have hE : ∀ e : Fault, e ≠ .modeIndex → ModeSafe s l → e ≠ .modeIndex := fun e he _ => he
  cases k with
  | join | nick | privmsg | mode | c302 | namreply | whoreply | c001 | c004 | c005 => cases hq
  | part => exact handlePart_silent hE h
  | kick => exact handleKick_silent hE h
  | quit => exact handleQuit_silent hE h
  | topic => exact handleTopic_silent hE now
  | umodeis =>
      refine handleUmodeis_silent hE ?_
      exact fun w hw hFF hs => absurd hFF (hs.umodeis hk w hw)
  | c324 =>
      refine handle324_silent hE ?_
      exact fun w hon hw hFF hs => absurd hFF (hs.c324 hk hon w hw)
  | c329 => exact handle329_silent hE
  | c332 => exact handle332_silent hE
  | c333 => exact handle333_silent hE
  | noTopic => exact handleNoTopic_silent hE
  | endNames => exact handleEndNames_silent hE
  | banlistEntry | invitelistEntry | exceptlistEntry => exact handleMaskEntry_silent hE _
  | endBanlist | endInvitelist | endExceptlist => exact handleEndMasks_silent hE _
  | endWho => exact .refl
  | nowaway => exact .away true
  | unaway => exact .away false

/-- **What a line does to a consistent graph** is a sequence of edits, a bare renaming of the user,
or a new announcement; and only a character `0xFF` leaves a mode table. -/
theorem handler_step (h : Graph s) {k : Command} (hk : commandOf l = some k) (now : Long) :
    Ensures (k.handler now s l) (Step s l) (fun e => ModeSafe s l → e ≠ .modeIndex) := by
  have hE : ∀ e : Fault, e ≠ .modeIndex → ModeSafe s l → e ≠ .modeIndex := fun e he _ => he
  cases hq : k.isQuiet with
  | true => exact (handler_silent h hk hq now).imp fun _ q => .edits q.edits
  | false =>
      cases k with
      | join =>
          refine (handleJoin_edits hE h ?_).imp fun _ => .edits
          exact fun o ho hFF hs => absurd hFF (hs.join hk o ho)
      | nick => exact (handleNick_edits hE).imp fun _ => .edits
      | privmsg => exact (handlePrivmsg_edits hE).imp fun _ => .edits
      | mode =>
          refine (handleMode_edits hE ?_ now).imp fun _ => .edits
          exact fun hFF hs => absurd hFF (hs.mode hk)
      | c001 => exact handle001_step hE hk
      | c004 =>
          refine (handle004_info hE).imp ?_
          rintro _ ⟨i, rfl⟩
          exact .info i (.inl hk)
      | c005 =>
          refine (handle005_info hE).imp ?_
          rintro _ ⟨i, rfl⟩
          exact .info i (.inr hk)
      | c302 => exact (handle302_edits hE).imp fun _ => .edits
      | namreply =>
          refine (handleNamreply_edits hE h ?_).imp fun _ => .edits
          exact fun hFF hs => absurd hFF (hs.namreply hk)
      | whoreply => exact (handleWhoreply_edits hE now).imp fun _ => .edits
      | _ => cases hq

theorem stateStep_handler {i : Input} {k : Command} (hk : commandOf i.2 = some k) :
    stateStep s i = k.handler i.1 s i.2 := by
  unfold stateStep stateHandleData
  rw [hk]
  dsimp only
  cases k.handler i.1 s i.2 <;> rfl

theorem stateStep_none {i : Input} (hk : commandOf i.2 = none) : stateStep s i = .ok s := by
  unfold stateStep stateHandleData
  rw [hk]
  rfl

theorem stateStep_step (h : Graph s) (i : Input) :
    Ensures (stateStep s i) (Step s i.2) (fun e => ModeSafe s i.2 → e ≠ .modeIndex) := by
  cases hk : commandOf i.2 with
  | none => exact ensures_of_eq_ok (stateStep_none hk) (.edits .refl)
  | some k =>
      rw [stateStep_handler hk]
      exact handler_step h hk i.1

/-- Only two lines announce anything. -/
theorem stateStep_info (h : Graph s) {i : Input} (h4 : commandOf i.2 ≠ some .c004)
    (h5 : commandOf i.2 ≠ some .c005) {s' : NetworkState} (hs : stateStep s i = .ok s') :
    s'.info = s.info := by
  cases (stateStep_step h i).of_ok hs with
  | edits e => exact e.info_eq
  | rename _ _ _ => rfl
  | info i hi => exact absurd hi (not_or.mpr ⟨h4, h5⟩)

end

end Ctrlproxy
