import Mathlib.Data.Finset.Basic
import Mathlib.Data.Finset.Dedup
import Ctrlproxy.State.Lookup
import Ctrlproxy.State.Modes

/-!
# State — the mask lists of a channel as the server holds them

`MaskView` is the server's side of one of the three lists of a channel: the masks it holds, how far the
listing in progress has got, and whether one was sent to its end since the channel was joined.  Every
channel has one, with whatever masks the server held when the channel was joined.  A channel holds what
it was told of them (`MaskView.HeldBy`): the part of the list that is being sent, the whole list once it
was sent, and nothing before.
-/

namespace Ctrlproxy
open Outcome

/-! ### What the server holds and sends -/

/-- The server's side of a list. -/
structure MaskView where
  masks : Finset Str
  fetched : Bool
  listing : Option (Finset Str)

namespace MaskView

/-- The masks that the listing in progress has sent. -/
def sent (v : MaskView) : Finset Str := v.listing.getD ∅

/-- One mask of a listing is sent. -/
def entry (mask : Str) (v : MaskView) : MaskView := { v with listing := some (insert mask v.sent) }

/-- The end of a listing is sent. -/
def ended (v : MaskView) : MaskView := { v with fetched := true, listing := none }

/-- A mask is added or removed. -/
def change (v : MaskView) (x : Bool × Str) : MaskView :=
  { v with masks := if x.1 then insert x.2 v.masks else v.masks.erase x.2 }

/-- Each change adds a mask that is absent, or removes one that is present. -/
def Accepts : MaskView → List (Bool × Str) → Prop
  | _, [] => True
  | v, x :: xs => (x.2 ∈ v.masks ↔ x.1 = false) ∧ Accepts (v.change x) xs

/-- What a channel can know of the masks. -/
def told (v : MaskView) : Finset Str :=
  match v.listing with
  | some sent => sent
  | none => if v.fetched then v.masks else ∅

end MaskView

/-- A view for every channel. -/
abbrev MaskViews := Ref → MaskView

/-- The view of the named channel changes, if it is known. -/
def atNamed (s : NetworkState) (name : Option Str) (f : MaskView → MaskView) (g : MaskViews) :
    MaskViews :=
  match name with
  | none => g
  | some name => match findChannel s name with
      | .ok (some r) => Function.update g r (f (g r))
      | _ => g

/-- The channel whose modes a MODE line changes. -/
def modeTarget (s : NetworkState) (l : IrcLine) : Option Str :=
  l.args[1]?.filter fun name => isChannelname name s.info = .ok true

/-- A letter of a mode change, as a change of a list. -/
def maskChange (k : MaskList) (x : ModeChange) : Option (Bool × Str) :=
  if x.mode = k.letter then x.arg.map (x.set, ·) else none

/-- The changes of a list in a MODE line. -/
def maskChanges (k : MaskList) (s : NetworkState) (l : IrcLine) : List (Bool × Str) :=
  ((lineChanges s.info l 2).getD []).filterMap (maskChange k)

/-- The views after a line. -/
def maskStep (k : MaskList) (s : NetworkState) (g : MaskViews) (l : IrcLine) : MaskViews :=
  match commandOf l with
  | none => g
  | some cmd =>
      if cmd = k.entryCommand then atNamed s l.args[2]? (.entry (l.args[3]?.getD [])) g
      else if cmd = k.endCommand then atNamed s l.args[2]? .ended g
      else if cmd = .mode then
        atNamed s (modeTarget s l) (fun v => (maskChanges k s l).foldl .change v) g
      else g

/-- What a server sends about its list; every other line is free. -/
structure MaskLine (k : MaskList) (s : NetworkState) (g : MaskViews) (l : IrcLine) : Prop where
  /-- A listing sends the masks of the list, each once. -/
  entry : commandOf l = some k.entryCommand → AtChannel s l.args[2]? fun r _ =>
    ∃ mask ∈ (g r).masks, l.args[3]? = some mask ∧ mask ∉ (g r).sent
  /-- A listing ends when it has sent them all. -/
  ended : commandOf l = some k.endCommand → AtChannel s l.args[2]? fun r _ =>
    (g r).sent = (g r).masks
  /-- A mode change with the letter comes between listings, has letters of lists only, and changes
  the list. -/
  mode : commandOf l = some .mode → AtChannel s (modeTarget s l) fun r _ =>
    k.letter ∈ l.args[2]?.getD [] → (g r).listing = none ∧ (g r).Accepts (maskChanges k s l) ∧
      ∃ xs, lineChanges s.info l 2 = some xs ∧
        ∀ x ∈ xs, networkChanmodeType x.mode s.info = .ok .nicklist

/-- The state and the views after a line. -/
def maskRunStep (k : MaskList) (x : NetworkState × MaskViews) (i : Input) :
    Except Fault (NetworkState × MaskViews) := do
  let s ← stateStep x.1 i
  pure (s, maskStep k x.1 x.2 i.2)

/-! ### What a channel holds -/

/-- The masks that are stored for a list. -/
def storedMasks (k : MaskList) (ch : ChannelState) : List (Option Str) :=
  (ch.chanmodeNicklist k.slot).map (·.hostmask)

/-- Exactly the masks of a set, each once. -/
def EachOnce (l : List (Option Str)) (masks : Finset Str) : Prop :=
  ∃ ms : List Str, ms.Nodup ∧ ms.toFinset = masks ∧ l = ms.map some

/-- A channel holds what it was told of a list. -/
structure MaskView.HeldBy (k : MaskList) (v : MaskView) (ch : ChannelState) : Prop where
  present : ch.chanmodeNicklistPresent k.slot = v.fetched
  started : k.started ch = v.listing.isSome
  masks : EachOnce (storedMasks k ch) v.told

/-- Every channel holds what it was told, and nothing was told about those to come. -/
structure MasksTracked (k : MaskList) (s : NetworkState) (g : MaskViews) : Prop where
  held : ∀ r ch, s.chanHeap r = some ch → (g r).HeldBy k ch
  new : ∀ r, s.next ≤ r → (g r).fetched = false ∧ (g r).listing = none

/-- A change at one channel after which it holds a view. -/
structure LeavesMasks (k : MaskList) (c : Ref) (v : MaskView) (s s' : NetworkState) : Prop where
  only : ModesOnly c s s'
  held : ∃ ch, s'.chanHeap c = some ch ∧ v.HeldBy k ch

section
variable {k : MaskList} {v : MaskView} {g : MaskViews} {s s' s₀ : NetworkState} {c : Ref}
  {ch ch' : ChannelState} {mask : Str} {set : Bool} {m : Byte} {now : Long} {by' : Option Ref}
  {l : IrcLine}

theorem MaskView.HeldBy.of_eq (h : v.HeldBy k ch) (e : heldMasks k ch' = heldMasks k ch) :
    v.HeldBy k ch' := by
  rw [heldMasks, heldMasks, Prod.mk.injEq, Prod.mk.injEq] at e
  refine ⟨e.1.trans h.present, e.2.1.trans h.started, ?_⟩
  rw [storedMasks, e.2.2]
  exact h.masks

theorem EachOnce.empty : EachOnce [] ∅ := ⟨[], List.nodup_nil, rfl, rfl⟩

theorem EachOnce.add {l : List (Option Str)} {A : Finset Str} (h : EachOnce l A) (hm : mask ∉ A) :
    EachOnce (l ++ [some mask]) (insert mask A) := by
  obtain ⟨ms, hnodup, rfl, rfl⟩ := h
  refine ⟨ms ++ [mask], ?_, ?_, by rw [List.map_append]; rfl⟩
  · rw [List.nodup_append]
    refine ⟨hnodup, List.nodup_singleton mask, ?_⟩
    rintro a ha b hb rfl
    rw [List.mem_singleton.mp hb] at ha
    exact hm (List.mem_toFinset.mpr ha)
  · ext x
    simp only [Finset.mem_insert, List.mem_toFinset, List.mem_append, List.mem_singleton]
    exact or_comm

theorem EachOnce.remove {ms : List Str} (h : ms.Nodup) :
    EachOnce ((ms.erase mask).map some) (ms.toFinset.erase mask) := by
  refine ⟨ms.erase mask, h.erase mask, ?_, rfl⟩
  ext x
  rw [List.mem_toFinset, h.mem_erase_iff, Finset.mem_erase, List.mem_toFinset]

/-- Between listings the whole list is known, if it was ever sent. -/
theorem MaskView.told_fetched (hl : v.listing = none) (hf : v.fetched = true) : v.told = v.masks := by
  rw [MaskView.told, hl]
  exact if_pos hf

theorem MaskView.told_unfetched (hl : v.listing = none) (hf : v.fetched = false) : v.told = ∅ := by
  rw [MaskView.told, hl]
  exact if_neg (by rw [hf]; exact Bool.false_ne_true)

/-- What is known at the end of a listing is the whole list. -/
theorem MaskView.told_of_sent (h : v.sent = v.masks) : v.told = v.masks := by
  rw [MaskView.sent] at h
  rw [MaskView.told]
  cases hl : v.listing with
  | some sent =>
      rw [hl] at h
      exact h
  | none =>
      rw [hl] at h
      rw [← h]
      exact ite_self _

/-! ### Listings -/

/-- The first mask of a listing empties the list. -/
theorem MaskView.HeldBy.entry (h : v.HeldBy k ch) (hm : mask ∉ v.sent) (by' : Option Str)
    (at' : Long) : (v.entry mask).HeldBy k (addMask k k.slot (some mask) by' at' ch) where
  present := by
    refine Eq.trans ?_ h.present
    cases k <;> rfl
  started := by cases k <;> rfl
  masks := by
    have stored : storedMasks k (addMask k k.slot (some mask) by' at' ch) =
        (if k.started ch then storedMasks k ch else []) ++ [some mask] := by
      rw [storedMasks, addMask]
      dsimp only
      rw [ModeArray.set, if_pos rfl, nicklistAddEntry, List.map_append]
      split <;> rfl
    have old : EachOnce (if k.started ch then storedMasks k ch else []) v.sent := by
      have hmasks := h.masks
      rw [h.started]
      rw [MaskView.told] at hmasks
      rw [MaskView.sent]
      cases hl : v.listing with
      | some sent =>
          rw [hl] at hmasks
          exact hmasks
      | none => exact .empty
    rw [stored]
    exact old.add hm

/-- The end of a listing leaves the masks that were sent. -/
theorem MaskView.HeldBy.ended (h : v.HeldBy k ch) (hall : v.sent = v.masks) :
    v.ended.HeldBy k { k.setStarted ch false with
      chanmodeNicklistPresent := ModeArray.set ch.chanmodeNicklistPresent k.slot true } where
  present := if_pos rfl
  started := by cases k <;> rfl
  masks := by
    have hmasks := h.masks
    rw [MaskView.told_of_sent hall] at hmasks
    have same : (k.setStarted ch false).chanmodeNicklist = ch.chanmodeNicklist := by cases k <;> rfl
    rw [storedMasks]
    dsimp only
    rw [same]
    exact hmasks

/-! ### Mode changes -/

/-- Fields besides the lists of masks. -/
theorem heldMasks_congr (hn : ch'.chanmodeNicklist = ch.chanmodeNicklist)
    (hp : ch'.chanmodeNicklistPresent = ch.chanmodeNicklistPresent)
    (hb : ch'.banlistStarted = ch.banlistStarted) (hi : ch'.invitelistStarted = ch.invitelistStarted)
    (he : ch'.exceptlistStarted = ch.exceptlistStarted) : heldMasks k ch' = heldMasks k ch := by
  have hs : k.started ch' = k.started ch := by
    cases k with
    | invitelist => exact hi
    | exceptlist => exact he
    | banlist => exact hb
  rw [heldMasks, heldMasks, hn, hp, hs]

/-- The list of another letter. -/
theorem heldMasks_other {i : Fin MAXMODES} (hi : k.slot ≠ i) (new : List NicklistEntry) :
    heldMasks k { ch with chanmodeNicklist := ModeArray.set ch.chanmodeNicklist i new } =
      heldMasks k ch := by
  have started : k.started { ch with
      chanmodeNicklist := ModeArray.set ch.chanmodeNicklist i new } = k.started ch := by
    cases k <;> rfl
  rw [heldMasks, heldMasks, started]
  dsimp only
  rw [ModeArray.set, if_neg hi]

/-- A mask is added to a list that was sent, or removed from it. -/
theorem MaskView.HeldBy.change (h : v.HeldBy k ch) (hl : v.listing = none)
    (hadd : set = true → mask ∉ v.masks) (hf : v.fetched = true) {new : List NicklistEntry}
    (hnew : ∀ ms : List Str, storedMasks k ch = ms.map some →
      new.map (·.hostmask) = (if set then ms ++ [mask] else ms.erase mask).map some) :
    (v.change (set, mask)).HeldBy k
      { ch with chanmodeNicklist := ModeArray.set ch.chanmodeNicklist k.slot new } where
  present := h.present
  started := by
    refine Eq.trans ?_ h.started
    cases k <;> rfl
  masks := by
    obtain ⟨ms, hnodup, hms, hstored⟩ := h.masks
    have slot : ModeArray.set ch.chanmodeNicklist k.slot new k.slot = new := if_pos rfl
    rw [MaskView.told_fetched (v := v.change (set, mask)) hl hf, storedMasks]
    dsimp only
    rw [slot, hnew ms hstored, MaskView.change]
    rw [MaskView.told_fetched hl hf] at hms
    cases set with
    | true =>
        have absent : mask ∉ ms.toFinset := hms ▸ hadd rfl
        dsimp only
        rw [if_pos rfl, if_pos rfl, ← hms, List.map_append]
        exact EachOnce.add ⟨ms, hnodup, rfl, rfl⟩ absent
    | false =>
        dsimp only
        rw [if_neg Bool.false_ne_true, if_neg Bool.false_ne_true, ← hms]
        exact EachOnce.remove hnodup

/-- Nothing is known of a list that was never sent, whatever changes. -/
theorem MaskView.HeldBy.change_unsent (h : v.HeldBy k ch) (hl : v.listing = none)
    (hf : v.fetched = false) : (v.change (set, mask)).HeldBy k ch where
  present := h.present
  started := h.started
  masks := by
    rw [MaskView.told_unfetched (v := v.change (set, mask)) hl hf, ← MaskView.told_unfetched hl hf]
    exact h.masks

/-- What one letter of a list does to the list of another, or of its own. -/
theorem changeNicklist_held (hch : s.chanHeap c = some ch) (hv : v.HeldBy k ch)
    (hown : m = k.letter → v.listing = none ∧ (set = true → mask ∉ v.masks)) :
    Ensures (changeNicklist now by' c set m (some mask) s) (fun r => r.2 = some 1 ∧
      LeavesMasks k c (if m = k.letter then v.change (set, mask) else v) s r.1) fun _ => True := by
  refine Ensures.bind (Q := fun i => modeSlot m = .ok i) (by cases modeSlot m <;> trivial) ?_
  intro i hi
  rw [NetworkState.chan_eq hch, ok_bind]
  by_cases hm : m = k.letter
  · subst hm
    cases k.modeSlot_letter.symm.trans hi
    obtain ⟨hl, hadd⟩ := hown rfl
    rw [if_pos rfl]
    split
    · next hset =>
      refine (changeMasks_masks mask (ch.chanmodeNicklist k.slot)).bind fun new hnew => ?_
      exact ⟨rfl, modesOnly_setChan hch rfl rfl, _, Heap.set_same _ _ _,
        hv.change hl hadd (hv.present.symm.trans hset) hnew⟩
    · next hset =>
      have hf : v.fetched = false := hv.present.symm.trans (Bool.eq_false_of_not_eq_true hset)
      exact ⟨rfl, .refl c s, ch, hch, hv.change_unsent hl hf⟩
  · have other : k.slot ≠ i := fun e => hm (modeSlot_inj hi (e ▸ k.modeSlot_letter))
    rw [if_neg hm]
    split
    · refine Ensures.bind (Q := fun _ => True)
        (by cases changeMasks now by' set mask s (ch.chanmodeNicklist i) <;> trivial) fun new _ => ?_
      exact ⟨rfl, modesOnly_setChan hch rfl rfl, _, Heap.set_same _ _ _,
        hv.of_eq (heldMasks_other other new)⟩
    · exact ⟨rfl, .refl c s, ch, hch, hv⟩

/-- A letter of another list or of none leaves the list. -/
theorem channelStateChangeMode_kept (hm : m ≠ k.letter) (o : Option Str) :
    Ensures (channelStateChangeMode now by' c set m o s)
      (fun r => ChansKept (heldMasks k) (false, false, []) s r.1) fun _ => True := by
  have setting (x : Option Str) : Ensures (setOption c m x s)
      (ChansKept (heldMasks k) (false, false, []) s) fun _ => True := by
    refine Ensures.bind (Q := fun _ => True) (by cases modeSlot m <;> trivial) fun i _ => ?_
    refine modifyChan_kept (fun ch => ?_) c
    exact heldMasks_congr rfl rfl rfl rfl rfl
  refine Ensures.bind (Q := fun _ => True) (by cases networkChanmodeType m s.info <;> trivial) ?_
  intro t _
  split
  · cases o with
    | none => exact .refl s
    | some mask =>
        refine Ensures.bind (Q := fun i => modeSlot m = .ok i) (by cases modeSlot m <;> trivial) ?_
        intro i hi
        have other : k.slot ≠ i := fun e => hm (modeSlot_inj hi (e ▸ k.modeSlot_letter))
        refine (NetworkState.chan_ensures open_faults c).bind fun ch hch => ?_
        split
        · refine Ensures.bind (Q := fun _ => True)
            (by cases changeMasks now by' set mask s (ch.chanmodeNicklist i) <;> trivial) ?_
          intro new _
          exact .of_set le_rfl rfl hch (heldMasks_other other new)
        · exact .refl s
  split
  · unfold changeSetting
    split
    · cases o with
      | none => exact .refl s
      | some x => exact (setting (some x)).bind fun s' hs' => hs'
    · exact (setting none).bind fun s' hs' => hs'
  split
  · cases o with
    | none => exact .refl s
    | some nick =>
        refine (findChannelNick_ensures open_faults c nick).bind fun r _ => ?_
        cases r with
        | none => exact .refl s
        | some n =>
            refine (NetworkState.memb_ensures open_faults n).bind fun cn _ => ?_
            refine Ensures.bind (Q := fun _ => True)
              (by cases modesChangeMode cn.modes set m <;> trivial) fun modes _ => ?_
            exact ChansSame.kept ⟨le_rfl, rfl⟩
  split
  · refine (NetworkState.chan_ensures open_faults c).bind fun ch hch => ?_
    refine Ensures.bind (Q := fun _ => True) (by cases modesChangeMode ch.modes set m <;> trivial) ?_
    intro modes _
    exact .of_set le_rfl rfl hch (heldMasks_congr rfl rfl rfl rfl rfl)
  · exact .refl s

/-- Letters of other lists or of none leave the list. -/
theorem channelModeLoop_kept {w : Str} {arg : ℕ} (hw : k.letter ∉ w) :
    Ensures (channelModeLoop now l by' c w set arg s) (ChansKept (heldMasks k) (false, false, []) s)
      fun _ => True := by
  induction w generalizing set arg s with
  | nil => exact .refl s
  | cons m w ih =>
      obtain ⟨hne, hw⟩ := not_or.mp (mt List.mem_cons.mpr hw)
      by_cases hsign : m = chr '+' ∨ m = chr '-'
      · rw [channelModeLoop_sign hsign]
        exact ih hw
      obtain ⟨hp, hm⟩ := not_or.mp hsign
      refine channelModeLoop_letter hp hm fun o _ => ?_
      refine (channelStateChangeMode_kept (Ne.symm hne) o).imp fun r hr => ?_
      cases r.2 with
      | none => exact hr
      | some n => exact (ih hw).imp fun _ => hr.trans

/-- A change of letters of lists only changes the list as the server does. -/
theorem channelModeLoop_masks {w : Str} {arg : ℕ} {args : List Str} {xs : List ModeChange}
    (h : LeavesMasks k c v s₀ s) (hx : modeChanges s₀.info set w args = some xs)
    (hlists : ∀ x ∈ xs, networkChanmodeType x.mode s₀.info = .ok .nicklist)
    (hl : v.listing = none) (hacc : v.Accepts (xs.filterMap (maskChange k)))
    (hargs : l.args.drop arg = args) :
    Ensures (channelModeLoop now l by' c w set arg s)
      (LeavesMasks k c ((xs.filterMap (maskChange k)).foldl .change v) s₀) fun _ => True := by
  induction w generalizing set args xs v arg s with
  | nil =>
      unfold modeChanges at hx
      cases hx
      exact h
  | cons m w ih =>
      by_cases hp : m = chr '+'
      · rw [modeChanges_plus hp] at hx
        rw [channelModeLoop_plus hp]
        exact ih h hx hlists hl hacc hargs
      by_cases hm : m = chr '-'
      · rw [modeChanges_minus hp hm] at hx
        rw [channelModeLoop_minus hp hm]
        exact ih h hx hlists hl hacc hargs
      obtain ⟨a, args', xs', rfl, hx', htakes, rfl⟩ := modeChanges_letter hp hm hx
      have htype := hlists _ List.mem_cons_self
      have hlists' := fun x hx => hlists x (List.mem_cons_of_mem _ hx)
      -- every letter of a list has its mask
      rw [needsArg, htype] at htakes
      obtain ⟨mask, rfl⟩ := Option.isSome_iff_exists.mp (Option.some.inj htakes).symm
      refine channelModeLoop_letter hp hm fun o ho => ?_
      have hmask : l.args[arg]? = some mask := by
        rw [← List.head?_drop, hargs]
        rfl
      obtain rfl := ho.symm.trans hmask
      have hrest : l.args.drop (arg + 1) = args' := by
        rw [← List.drop_drop, hargs]
        rfl
      obtain ⟨ch, hch, hheld⟩ := h.held
      have cons : (⟨set, m, some mask⟩ :: xs').filterMap (maskChange k) =
          if m = k.letter then (set, mask) :: xs'.filterMap (maskChange k)
          else xs'.filterMap (maskChange k) := by
        by_cases hm : m = k.letter <;> simp [maskChange, hm]
      rw [cons] at hacc ⊢
      have letter : Ensures (channelStateChangeMode now by' c set m (some mask) s)
          (fun r => r.2 = some 1 ∧
            LeavesMasks k c (if m = k.letter then v.change (set, mask) else v) s r.1) fun _ => True := by
        rw [channelStateChangeMode, h.only.info, htype, ok_bind, if_pos rfl]
        refine changeNicklist_held hch hheld fun hm => ⟨hl, fun hset hmem => ?_⟩
        rw [if_pos hm] at hacc
        have := hacc.1.mp hmem
        rw [hset] at this
        cases this
      refine letter.imp ?_
      rintro ⟨s', ret⟩ ⟨rfl, hleaves⟩
      have after : LeavesMasks k c (if m = k.letter then v.change (set, mask) else v) s₀ s' :=
        ⟨h.only.trans hleaves.only, hleaves.held⟩
      change Ensures (channelModeLoop now l by' c w set (arg + 1) s') _ _
      by_cases hm : m = k.letter
      · rw [if_pos hm] at hacc after ⊢
        exact ih after hx' hlists' hl hacc.2 hrest
      · rw [if_neg hm] at hacc after ⊢
        exact ih after hx' hlists' hl hacc hrest

/-! ### Lines -/

/-- A line that leaves the list of every channel. -/
theorem MasksTracked.kept (h : MasksTracked k s g)
    (hk : ChansKept (heldMasks k) (false, false, []) s s') : MasksTracked k s' g where
  held := by
    intro r ch' hch'
    rcases hk.chan r ch' hch' with ⟨ch, hch, he⟩ | ⟨hr, he⟩
    · exact (h.held r ch hch).of_eq he
    · obtain ⟨hf, hl⟩ := h.new r hr
      rw [heldMasks, Prod.mk.injEq, Prod.mk.injEq] at he
      refine ⟨he.1.trans hf.symm, he.2.1.trans (by rw [hl]; rfl), ?_⟩
      rw [storedMasks, he.2.2, MaskView.told_unfetched hl hf]
      exact .empty
  new := fun r hr => h.new r (hk.next.trans hr)

theorem atNamed_found {name : Str} {f : MaskView → MaskView}
    (h : findChannel s name = .ok (some c)) :
    atNamed s (some name) f g = Function.update g c (f (g c)) := by
  rw [atNamed, h]

theorem atNamed_unknown {name : Str} {f : MaskView → MaskView}
    (h : findChannel s name = .ok none) : atNamed s (some name) f g = g := by
  rw [atNamed, h]

/-- A handler that looks for a channel first, and changes what is known of its list. -/
theorem MasksTracked.found (hg : Graph s) (h : MasksTracked k s g) {name : Str}
    {f : MaskView → MaskView} {body : Ref → Except Fault NetworkState}
    (hbody : ∀ c ch, findChannel s name = .ok (some c) → s.chanHeap c = some ch →
      Ensures (body c) (LeavesMasks k c (f (g c)) s) fun _ => True) :
    Ensures (findChannel s name >>= fun o => match o with
      | none => pure s
      | some c => body c) (fun s' => MasksTracked k s' (atNamed s (some name) f g)) fun _ => True := by
  obtain ⟨o, ho, hmem⟩ := (findChannel_total hg name).exists_ok
  rw [ho, ok_bind]
  cases o with
  | none =>
      rw [atNamed_unknown ho]
      exact h
  | some c =>
      obtain ⟨ch, hch, -⟩ := hg.chan_live c (hmem c rfl)
      rw [atNamed_found ho]
      refine (hbody c ch ho hch).imp fun s' hs' => ⟨fun r ch' hch' => ?_, fun r hr => ?_⟩
      · by_cases hr : r = c
        · subst hr
          obtain ⟨ch'', hch'', hheld⟩ := hs'.held
          cases hch''.symm.trans hch'
          rw [Function.update_self]
          exact hheld
        · rw [hs'.only.others r hr] at hch'
          rw [Function.update_of_ne hr]
          exact h.held r ch' hch'
      · rw [hs'.only.next] at hr
        rw [Function.update_of_ne ((hg.channel_lt (hmem c rfl)).trans_le hr).ne']
        exact h.new r hr

theorem handleMaskEntry_tracked (hg : Graph s) (h : MasksTracked k s g)
    (hline : AtChannel s l.args[2]? fun r _ =>
      ∃ mask ∈ (g r).masks, l.args[3]? = some mask ∧ mask ∉ (g r).sent) :
    Ensures (handleMaskEntry k s l)
      (fun s' => MasksTracked k s' (atNamed s l.args[2]? (.entry (l.args[3]?.getD [])) g))
      fun _ => True := by
  refine (IrcLine.argStr_ensures open_faults 2).bind fun name hname => ?_
  rw [hname]
  refine h.found hg fun c ch hc hch => ?_
  obtain ⟨mask, -, hmask, hnew⟩ := hline name hname c ch hc hch
  rw [k.modeSlot_letter, ok_bind, IrcLine.arg_eq hmask, ok_bind]
  refine (maskSetter_ensures open_faults k).bind fun p _ => ?_
  refine (NetworkState.modifyChan_ensures open_faults c _).imp ?_
  rintro _ ⟨ch', hch', rfl⟩
  cases hch.symm.trans hch'
  rw [hmask]
  refine ⟨modesOnly_setChan hch ?_ ?_, _, Heap.set_same _ _ _, (h.held c ch hch).entry hnew _ _⟩
  · cases k <;> rfl
  · cases k <;> rfl

theorem handleEndMasks_tracked (hg : Graph s) (h : MasksTracked k s g)
    (hline : AtChannel s l.args[2]? fun r _ => (g r).sent = (g r).masks) :
    Ensures (handleEndMasks k s l) (fun s' => MasksTracked k s' (atNamed s l.args[2]? .ended g))
      fun _ => True := by
  refine (IrcLine.argStr_ensures open_faults 2).bind fun name hname => ?_
  rw [hname]
  refine h.found hg fun c ch hc hch => ?_
  rw [k.modeSlot_letter, ok_bind]
  refine (NetworkState.modifyChan_ensures open_faults c _).imp ?_
  rintro _ ⟨ch', hch', rfl⟩
  cases hch.symm.trans hch'
  refine ⟨modesOnly_setChan hch ?_ ?_, _, Heap.set_same _ _ _,
    (h.held c ch hch).ended (hline name hname c ch hc hch)⟩
  · cases k <;> rfl
  · cases k <;> rfl

theorem modeChanges_mem {info : NetworkInfo} {w : Str} {args : List Str} {xs : List ModeChange}
    (hx : modeChanges info set w args = some xs) : ∀ x ∈ xs, x.mode ∈ w := by
  induction w generalizing set args xs with
  | nil =>
      unfold modeChanges at hx
      cases hx
      exact fun x hx => absurd hx List.not_mem_nil
  | cons m w ih =>
      by_cases hp : m = chr '+'
      · rw [modeChanges_plus hp] at hx
        exact fun x hmem => List.mem_cons_of_mem _ (ih hx x hmem)
      by_cases hm : m = chr '-'
      · rw [modeChanges_minus hp hm] at hx
        exact fun x hmem => List.mem_cons_of_mem _ (ih hx x hmem)
      obtain ⟨a, args', xs', rfl, hx', -, -⟩ := modeChanges_letter hp hm hx
      intro x hmem
      rcases List.mem_cons.mp hmem with rfl | hmem
      · exact List.mem_cons_self
      · exact List.mem_cons_of_mem _ (ih hx' x hmem)

/-- A mode change without the letter does not change the list. -/
theorem maskChanges_none (hw : k.letter ∉ l.args[2]?.getD []) : maskChanges k s l = [] := by
  rw [maskChanges]
  cases hx : lineChanges s.info l 2 with
  | none => rfl
  | some xs =>
      refine List.filterMap_eq_nil_iff.mpr fun x hmem => if_neg fun e => hw ?_
      exact e ▸ modeChanges_mem hx x hmem

theorem atNamed_id (name : Option Str) : atNamed s name (fun v => v) g = g := by
  unfold atNamed
  split
  · rfl
  · split
    · exact Function.update_eq_self _ g
    · rfl

theorem handleMode_tracked (hg : Graph s) (h : MasksTracked k s g)
    (hline : AtChannel s (modeTarget s l) fun r _ => k.letter ∈ l.args[2]?.getD [] →
      (g r).listing = none ∧ (g r).Accepts (maskChanges k s l) ∧
        ∃ xs, lineChanges s.info l 2 = some xs ∧
          ∀ x ∈ xs, networkChanmodeType x.mode s.info = .ok .nicklist) :
    Ensures (handleMode now s l) (fun s' => MasksTracked k s'
      (atNamed s (modeTarget s l) (fun v => (maskChanges k s l).foldl .change v) g))
      fun _ => True := by
  refine (IrcLine.argStr_ensures open_faults 1).bind fun target htarget => ?_
  refine (IrcLine.argStr_ensures open_faults 2).bind fun change hchange => ?_
  refine Ensures.bind (Q := fun b => isChannelname target s.info = .ok b)
    (by cases isChannelname target s.info <;> trivial) fun b hb => ?_
  cases b with
  | false =>
      -- a user changes a mode of their own
      have own : modeTarget s l = none := by
        rw [modeTarget, htarget, Option.filter_some, if_neg]
        rw [hb]
        decide
      rw [own]
      refine (findAddNetworkNick_chans target).bind fun r hr => ?_
      refine (NetworkState.nick_ensures open_faults r.1).bind fun n _ => ?_
      refine Ensures.bind (Q := fun _ => True) (by cases changeModes true n.modes change <;> trivial)
        fun modes _ => ?_
      exact h.kept (hr.kept.trans (ChansSame.kept ⟨le_rfl, rfl⟩))
  | true =>
      have named : modeTarget s l = some target := by
        rw [modeTarget, htarget, Option.filter_some, if_pos]
        exact decide_eq_true hb
      rw [named] at hline ⊢
      rw [hchange, Option.getD_some] at hline
      rw [if_pos rfl]
      by_cases hw : k.letter ∈ change
      · refine h.found hg fun c ch hc hch => ?_
        obtain ⟨hl, hacc, xs, hxs, hlists⟩ := hline target rfl c ch hc hch hw
        refine (lineGetNick_ensures open_faults).bind fun byName _ => ?_
        refine (findNetworkNick_ensures open_faults byName).bind fun by' _ => ?_
        rw [maskChanges, hxs, Option.getD_some] at hacc ⊢
        rw [lineChanges, hchange, Option.getD_some] at hxs
        exact channelModeLoop_masks ⟨.refl c s, ch, hch, h.held c ch hch⟩ hxs hlists hl hacc rfl
      · have unchanged : maskChanges k s l = [] := maskChanges_none (by rwa [hchange])
        rw [unchanged]
        simp only [List.foldl_nil]
        rw [atNamed_id]
        refine Ensures.imp ?_ fun _ => h.kept
        refine findChannel_kept target fun c => ?_
        refine (lineGetNick_ensures open_faults).bind fun byName _ => ?_
        refine (findNetworkNick_ensures open_faults byName).bind fun by' _ => ?_
        exact channelModeLoop_kept hw

theorem maskStep_entry (h : commandOf l = some k.entryCommand) :
    maskStep k s g l = atNamed s l.args[2]? (.entry (l.args[3]?.getD [])) g := by
  rw [maskStep, h]
  exact if_pos rfl

theorem maskStep_ended (h : commandOf l = some k.endCommand) :
    maskStep k s g l = atNamed s l.args[2]? .ended g := by
  have other : k.endCommand ≠ k.entryCommand := by cases k <;> decide
  rw [maskStep, h]
  dsimp only
  rw [if_neg other, if_pos rfl]

theorem maskStep_mode (h : commandOf l = some .mode) : maskStep k s g l =
    atNamed s (modeTarget s l) (fun v => (maskChanges k s l).foldl .change v) g := by
  have other : Command.mode ≠ k.entryCommand ∧ Command.mode ≠ k.endCommand := by cases k <;> decide
  rw [maskStep, h]
  dsimp only
  rw [if_neg other.1, if_neg other.2, if_pos rfl]

theorem maskStep_other {cmd : Command} (h : commandOf l = some cmd) (he : cmd ≠ k.entryCommand)
    (hd : cmd ≠ k.endCommand) (hm : cmd ≠ .mode) : maskStep k s g l = g := by
  rw [maskStep, h]
  dsimp only
  rw [if_neg he, if_neg hd, if_neg hm]

/-- Every channel holds what it was told after every line that the server may send. -/
theorem MasksTracked.step (hg : Graph s) (h : MasksTracked k s g) {i : Input}
    (hl : MaskLine k s g i.2) :
    Ensures (stateStep s i) (fun s' => MasksTracked k s' (maskStep k s g i.2)) fun _ => True := by
  cases hcmd : commandOf i.2 with
  | none =>
      rw [stateStep_none hcmd, maskStep, hcmd]
      exact h
  | some cmd =>
      rw [stateStep_handler hcmd]
      by_cases hentry : cmd = k.entryCommand
      · subst hentry
        rw [maskStep_entry hcmd]
        have line := handleMaskEntry_tracked hg h (hl.entry hcmd)
        cases k <;> exact line
      by_cases hended : cmd = k.endCommand
      · subst hended
        rw [maskStep_ended hcmd]
        have line := handleEndMasks_tracked hg h (hl.ended hcmd)
        cases k <;> exact line
      by_cases hmode : cmd = .mode
      · subst hmode
        rw [maskStep_mode hcmd]
        exact handleMode_tracked hg h (hl.mode hcmd)
      rw [maskStep_other hcmd hentry hended hmode]
      refine Ensures.imp ?_ fun _ => h.kept
      by_cases hother : ∃ m : MaskList, cmd = m.entryCommand ∨ cmd = m.endCommand
      · -- a listing of another list
        obtain ⟨m, rfl | rfl⟩ := hother
        · have ne : m ≠ k := fun e => hentry (e ▸ rfl)
          have line : Ensures (handleMaskEntry m s i.2) (ChansKept (heldMasks k) (false, false, []) s)
              fun _ => True := handleMaskEntry_kept m fun _ hi _ _ _ _ => heldMasks_addMask ne hi
          cases m <;> exact line
        · have ne : m ≠ k := fun e => hended (e ▸ rfl)
          have line : Ensures (handleEndMasks m s i.2) (ChansKept (heldMasks k) (false, false, []) s)
              fun _ => True := handleEndMasks_kept m fun _ hi _ => heldMasks_ended ne hi
          cases m <;> exact line
      · refine Command.handler_kept (heldMasks_reading k) i.1 hmode fun m => ?_
        exact not_or.mp fun e => hother ⟨m, e⟩

/-- **Lists of masks track the server.**  In every run in which a server sends whole listings of its
list and changes it between them, whatever else it sends: a channel that is still there stores exactly
the server's masks, each once, when a listing was sent to its end and none is in progress. -/
theorem masks_tracked {nick username hostname : Str} {g₀ : MaskViews} {x : NetworkState × MaskViews}
    (h₀ : ∀ r, (g₀ r).fetched = false ∧ (g₀ r).listing = none)
    (h : Reach (maskRunStep k) (fun x i => MaskLine k x.1 x.2 i.2)
      (networkStateInit nick username hostname, g₀) x)
    (hch : x.1.chanHeap c = some ch) (hf : (x.2 c).fetched = true) (hl : (x.2 c).listing = none) :
    EachOnce (storedMasks k ch) (x.2 c).masks := by
  have tracked : Graph x.1 ∧ MasksTracked k x.1 x.2 := by
    refine h.invariant (I := fun x => Graph x.1 ∧ MasksTracked k x.1 x.2)
      ⟨networkStateInit_graph _ _ _, ?_⟩ ?_
    · refine ⟨fun r ch hch => ?_, fun r _ => h₀ r⟩
      have empty : (networkStateInit nick username hostname).chanHeap r = none := rfl
      cases empty.symm.trans hch
    · rintro ⟨s, g⟩ i ⟨hg, ht⟩ hline
      have next : Ensures (stateStep s i) (fun s' => Graph s' ∧ MasksTracked k s' (maskStep k s g i.2))
          fun _ => True :=
        ((stateStep_step hg i).and (ht.step hg hline)).mono (fun _ hs => ⟨hs.1.graph hg, hs.2⟩)
          fun _ _ => trivial
      exact next.bind fun s' hs' => hs'
  have hmasks := (tracked.2.held c ch hch).masks
  rwa [MaskView.told_fetched hl hf] at hmasks

end

/-- A mask of a listing of bans, and the end of the listing. -/
def banListed : Input := inputOf ":server 367 me #c *!*@bad joe 5"
def bansEnded : Input := inputOf ":server 368 me #c :End of channel ban list"

/-- The user joins a channel with one ban, and the bans are listed. -/
theorem masks_tracked_listing : ∃ x ch,
    Reach (maskRunStep .banlist) (fun x i => MaskLine .banlist x.1 x.2 i.2)
      (networkStateInit (str "me") (str "user") (str "host"),
        fun _ => ⟨{str "*!*@bad"}, false, none⟩) x ∧
    x.1.chanHeap 1 = some ch ∧ EachOnce (storedMasks .banlist ch) {str "*!*@bad"} := by
  have run : (do
      let s₁ ← stateStep (networkStateInit (str "me") (str "user") (str "host")) meJoins
      let r₁ ← findChannel s₁ (str "#c")
      let s₂ ← stateStep s₁ banListed
      let r₂ ← findChannel s₂ (str "#c")
      let s₃ ← stateStep s₂ bansEnded
      pure (r₁, r₂, (s₃.chanHeap 1).isSome)) = .ok (some 1, some 1, true) := by decide +kernel
  obtain ⟨s₁, h₁, run⟩ := bind_eq_ok run
  obtain ⟨r₁, f₁, run⟩ := bind_eq_ok run
  obtain ⟨s₂, h₂, run⟩ := bind_eq_ok run
  obtain ⟨r₂, f₂, run⟩ := bind_eq_ok run
  obtain ⟨s₃, h₃, run⟩ := bind_eq_ok run
  simp only [pure_eq_ok, Except.ok.injEq, Prod.mk.injEq] at run
  obtain ⟨rfl, rfl, hsome⟩ := run
  obtain ⟨ch, hch⟩ := Option.isSome_iff_exists.mp hsome
  let g₀ : MaskViews := fun _ => ⟨{str "*!*@bad"}, false, none⟩
  have c₁ : commandOf meJoins.2 = some .join := by decide +kernel
  have c₂ : commandOf banListed.2 = some .banlistEntry := by decide +kernel
  have c₃ : commandOf bansEnded.2 = some .endBanlist := by decide +kernel
  have a₂ : banListed.2.args[2]? = some (str "#c") := by decide +kernel
  have m₂ : banListed.2.args[3]? = some (str "*!*@bad") := by decide +kernel
  have a₃ : bansEnded.2.args[2]? = some (str "#c") := by decide +kernel
  have view₁ : maskStep .banlist (networkStateInit (str "me") (str "user") (str "host")) g₀
      meJoins.2 = g₀ := maskStep_other c₁ (by decide) (by decide) (by decide)
  have view₂ : maskStep .banlist s₁ g₀ banListed.2 =
      Function.update g₀ 1 ((g₀ 1).entry (str "*!*@bad")) := by
    rw [maskStep_entry (k := .banlist) c₂, a₂, m₂, atNamed_found f₁, Option.getD_some]
  have view₃ : maskStep .banlist s₂ (Function.update g₀ 1 ((g₀ 1).entry (str "*!*@bad"))) bansEnded.2 =
      Function.update g₀ 1 ((g₀ 1).entry (str "*!*@bad")).ended := by
    rw [maskStep_ended (k := .banlist) c₃, a₃, atNamed_found f₂, Function.update_self,
      Function.update_idem]
  have reached : Reach (maskRunStep .banlist) (fun x i => MaskLine .banlist x.1 x.2 i.2)
      (networkStateInit (str "me") (str "user") (str "host"), g₀)
      (s₃, Function.update g₀ 1 ((g₀ 1).entry (str "*!*@bad")).ended) := by
    have e₁ : maskRunStep .banlist (networkStateInit (str "me") (str "user") (str "host"), g₀) meJoins =
        .ok (s₁, g₀) := by
      rw [maskRunStep, h₁, ok_bind, view₁, pure_eq_ok]
    have e₂ : maskRunStep .banlist (s₁, g₀) banListed =
        .ok (s₂, Function.update g₀ 1 ((g₀ 1).entry (str "*!*@bad"))) := by
      rw [maskRunStep, h₂, ok_bind, view₂, pure_eq_ok]
    have e₃ : maskRunStep .banlist (s₂, Function.update g₀ 1 ((g₀ 1).entry (str "*!*@bad"))) bansEnded =
        .ok (s₃, Function.update g₀ 1 ((g₀ 1).entry (str "*!*@bad")).ended) := by
      rw [maskRunStep, h₃, ok_bind, view₃, pure_eq_ok]
    have other {l : IrcLine} {cmd cmd' : Command} {P : Prop} (h : commandOf l = some cmd)
        (h' : commandOf l = some cmd') (ne : cmd ≠ cmd') : P :=
      absurd (Option.some.inj (h.symm.trans h')) ne
    refine .step (.step (.step .refl ⟨?_, ?_, ?_⟩ e₁) ⟨?_, ?_, ?_⟩ e₂) ⟨?_, ?_, ?_⟩ e₃
    · exact fun h => other c₁ h (by decide)
    · exact fun h => other c₁ h (by decide)
    · exact fun h => other c₁ h (by decide)
    · intro _ name hname r ch _ _
      exact ⟨str "*!*@bad", Finset.mem_singleton_self _, m₂, Finset.notMem_empty _⟩
    · exact fun h => other c₂ h (by decide)
    · exact fun h => other c₂ h (by decide)
    · exact fun h => other c₃ h (by decide)
    · intro _ name hname r ch hr _
      cases a₃.symm.trans hname
      cases f₂.symm.trans hr
      dsimp only
      rw [Function.update_self]
      rfl
    · exact fun h => other c₃ h (by decide)
  have known : Function.update g₀ 1 ((g₀ 1).entry (str "*!*@bad")).ended 1 =
      ⟨{str "*!*@bad"}, true, none⟩ := Function.update_self ..
  have stored := masks_tracked (fun _ => ⟨rfl, rfl⟩) reached hch (congrArg MaskView.fetched known)
    (congrArg MaskView.listing known)
  dsimp only at stored
  rw [known] at stored
  exact ⟨_, ch, reached, hch, stored⟩

end Ctrlproxy
