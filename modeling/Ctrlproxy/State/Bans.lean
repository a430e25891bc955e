import Ctrlproxy.State.Frame
import Ctrlproxy.State.Totality

/-!
# State — the bans of a channel as the server tells them

`BanView` is what the lines of a server say about the bans of a channel: whether a listing was
ended since the channel was joined, whether one is in progress, and the bans.  A run keeps one
beside the state for every channel (`banStep`).  The list of a channel is the list the server told
(`Tracks`) as long as every line is one the state machine reads as the server means it (`BanLine`).

A MODE line is read by the classes of CHANMODES (`banChanges`): a letter of class A or B takes an
argument, one of class C takes one when it is set, and so does the letter of a status.
-/

namespace Ctrlproxy
open Outcome

/-! ### What the server said -/

/-- The bans of a channel, as told since it was joined. -/
structure BanView where
  complete : Bool
  listing : Bool
  bans : List Str
  deriving DecidableEq

namespace BanView

/-- Nothing was said. -/
def unknown : BanView := ⟨false, false, []⟩

/-- 367: one ban of a listing. -/
def entry (mask : Str) (v : BanView) : BanView :=
  { v with listing := true, bans := (if v.listing then v.bans else []) ++ [mask] }

/-- 368: the end of a listing, of an empty one if it had no entry. -/
def ended (v : BanView) : BanView := ⟨true, false, if v.listing then v.bans else []⟩

/-- MODE: a ban is set or removed. -/
def change (v : BanView) (p : Bool × Str) : BanView :=
  if v.complete ∨ v.listing then
    { v with bans := if p.1 then v.bans ++ [p.2] else v.bans.erase p.2 }
  else v

end BanView

/-- Whether a letter of a mode change comes with an argument. -/
def expectsArg (info : NetworkInfo) (set : Bool) (m : Byte) : Bool :=
  match networkChanmodeType m info with
  | .ok .optSetting => set
  | .ok .bool => isPrefixMode info m
  | _ => true

/-- A ban is set or removed by the letter `b`, unless the server gave that letter another class. -/
def isBan (info : NetworkInfo) (m : Byte) : Prop :=
  m = chr 'b' ∧ networkChanmodeType m info = .ok .nicklist

instance (info : NetworkInfo) (m : Byte) : Decidable (isBan info m) :=
  inferInstanceAs (Decidable (_ ∧ _))

/-- The bans a mode change sets and removes: `set` is the sign in force, `args` are the arguments
that are left. -/
def banChanges (info : NetworkInfo) : (set : Bool) → Str → (args : List Str) → List (Bool × Str)
  | _, [], _ => []
  | _, _ :: _, [] => []
  | set, m :: w, a :: args =>
      if m = chr '+' then banChanges info true w (a :: args)
      else if m = chr '-' then banChanges info false w (a :: args)
      else if expectsArg info set m then
        if isBan info m then (set, a) :: banChanges info set w args else banChanges info set w args
      else banChanges info set w (a :: args)

/-- What the server says about each channel. -/
abbrev BanViews := Ref → BanView

/-- The view of the named channel changes, if it is known. -/
def onChannel (s : NetworkState) (name : Option Str) (f : BanView → BanView) (g : BanViews) :
    BanViews :=
  match name with
  | none => g
  | some name => match findChannel s name with
      | .ok (some r) => Function.update g r (f (g r))
      | _ => g

/-- The channels of a JOIN line of the user. -/
def ownJoins (s : NetworkState) (l : IrcLine) : List Str :=
  match lineGetNick l, s.nick meRef, l.args[1]? with
  | .ok nick, .ok me, some channels =>
      if ircEq (some s.info) (some nick) me.nick = .ok true then gStrsplit channels (chr ',') else []
  | _, _, _ => []

/-- The bans a MODE line for a channel changes. -/
def modeLineBans (s : NetworkState) (l : IrcLine) : List (Bool × Str) :=
  match l.args with
  | _ :: target :: change :: args =>
      if isChannelname target s.info = .ok true then banChanges s.info true change args else []
  | _ => []

/-- The views after a line. -/
def banStep (s : NetworkState) (g : BanViews) (l : IrcLine) : BanViews :=
  match commandOf l with
  | some .join => (ownJoins s l).foldl (fun g name => onChannel s (some name) (fun _ => .unknown) g) g
  | some .banlistEntry => onChannel s l.args[2]? (fun v => v.entry (l.args[3]?.getD [])) g
  | some .endBanlist => onChannel s l.args[2]? .ended g
  | some .mode => onChannel s l.args[1]? (fun v => (modeLineBans s l).foldl .change v) g
  | _ => g

/-! ### What the state machine says -/

/-- The slot of the letter `b`. -/
def banSlot : Fin MAXMODES := ⟨(chr 'b').1, by decide⟩

theorem modeSlot_ban : modeSlot (chr 'b') = .ok banSlot := by decide

/-- What a channel holds of its bans. -/
def heldBans (ch : ChannelState) : Bool × Bool × List (Option Str) :=
  (ch.chanmodeNicklistPresent banSlot, ch.banlistStarted,
    (ch.chanmodeNicklist banSlot).map (·.hostmask))

/-- What a channel holds is what the server told. -/
def BanView.HeldBy (v : BanView) (ch : ChannelState) : Prop :=
  heldBans ch = (v.complete, v.listing, v.bans.map some)

/-- Every channel holds what the server told, and nothing was told about those to come. -/
structure Tracks (s : NetworkState) (g : BanViews) : Prop where
  held : ∀ r ch, s.chanHeap r = some ch → (g r).HeldBy ch
  new : ∀ r, s.next ≤ r → g r = .unknown
  quiet : ∀ r, (g r).complete = false → (g r).listing = false → (g r).bans = []

/-! ### Lines read as they are meant -/

/-- The known channel a name stands for satisfies `P`. -/
def AtChannel (s : NetworkState) (name : Option Str) (P : Ref → ChannelState → Prop) : Prop :=
  ∀ n ∈ name, ∀ r ch, findChannel s n = .ok (some r) → s.chanHeap r = some ch → P r ch

/-- A letter of the status of a member. -/
def isStatus (info : NetworkInfo) (m : Byte) : Bool :=
  match networkChanmodeType m info with
  | .ok .bool | .ok .unknown => isPrefixMode info m
  | _ => false

/-- The code takes the arguments of a mode change for those of the letters they belong to, up to
the last ban: it leaves the argument of a removed setting to the next letter, and stops at a
status of someone who is not on the channel. -/
def Readable (s : NetworkState) (c : Ref) : (set : Bool) → Str → (args : List Str) → Prop
  | _, [], _ => True
  | _, _ :: _, [] => True
  | set, m :: w, a :: args =>
      if m = chr '+' then Readable s c true w (a :: args)
      else if m = chr '-' then Readable s c false w (a :: args)
      else if networkChanmodeType m s.info = .ok .setting ∧ set = false then chr 'b' ∉ w
      else if expectsArg s.info set m then
        (isStatus s.info m = true → findChannelNick s c a = .ok none →
          banChanges s.info set w args = []) ∧
        Readable s c set w args
      else Readable s c set w (a :: args)

/-- A line after which the bans that are kept are still those the server told. -/
structure BanLine (s : NetworkState) (l : IrcLine) : Prop where
  /-- The user joins no channel that is known already, with a listing of its bans. -/
  join : commandOf l = some .join → ∀ name ∈ ownJoins s l, AtChannel s (some name) fun _ ch =>
    ch.chanmodeNicklistPresent banSlot = false ∧ ch.banlistStarted = false
  /-- An entry has a mask. -/
  entry : commandOf l = some .banlistEntry → 3 < l.argc
  /-- A listing that ends without an entry does so for a channel without bans. -/
  ended : commandOf l = some .endBanlist → AtChannel s l.args[2]? fun _ ch =>
    ch.banlistStarted = false → ch.chanmodeNicklist banSlot = []
  /-- No ban changes during the first listing. -/
  mode : commandOf l = some .mode → AtChannel s l.args[1]? fun c ch =>
    (ch.banlistStarted = true → ch.chanmodeNicklistPresent banSlot = false →
      modeLineBans s l = []) ∧
    Readable s c true (l.args[2]?.getD []) (l.args.drop 3)

/-- The state and the views after a line. -/
def banRunStep (x : NetworkState × BanViews) (i : Input) : Except Fault (NetworkState × BanViews) := do
  let s ← stateStep x.1 i
  pure (s, banStep x.1 x.2 i.2)

/-! ### A letter of a mode change -/

/-- What a mode change leaves of a state: it is at one channel, and who is on it does not change. -/
structure ModesOnly (c : Ref) (s s' : NetworkState) : Prop where
  next : s'.next = s.next
  info : s'.info = s.info
  others : ∀ r, r ≠ c → s'.chanHeap r = s.chanHeap r
  members : ∀ name, findChannelNick s' c name = findChannelNick s c name

/-- The channel holds the view. -/
def Held (c : Ref) (v : BanView) (s : NetworkState) : Prop :=
  ∃ ch, s.chanHeap c = some ch ∧ v.HeldBy ch

section
variable {s s' s'' : NetworkState} {c : Ref} {v : BanView} {set : Bool} {m : Byte} {now : Long}
  {by' : Option Ref}

theorem ModesOnly.refl (c : Ref) (s : NetworkState) : ModesOnly c s s :=
  ⟨rfl, rfl, fun _ _ => rfl, fun _ => rfl⟩

theorem ModesOnly.trans (h : ModesOnly c s s') (h' : ModesOnly c s' s'') : ModesOnly c s s'' where
  next := h'.next.trans h.next
  info := h'.info.trans h.info
  others := fun r hr => (h'.others r hr).trans (h.others r hr)
  members := fun name => (h'.members name).trans (h.members name)

theorem modesOnly_setChan {ch ch' : ChannelState} (hch : s.chanHeap c = some ch)
    (hn : ch'.nicks = ch.nicks) (hw : ch'.network = ch.network) :
    ModesOnly c s (s.setChan c ch') where
  next := rfl
  info := rfl
  others := fun r hr => Heap.set_other hr
  members := by
    intro name
    have hch' : (s.setChan c ch').chan c = .ok ch' := NetworkState.chan_eq (Heap.set_same _ _ _)
    have hinfo : (s.setChan c ch').infoFor ch' = s.infoFor ch := by
      simp only [NetworkState.infoFor, hw, NetworkState.setChan_info]
    rw [findChannelNick, findChannelNick, hch', NetworkState.chan_eq hch, ok_bind, ok_bind, hinfo, hn]
    rfl

theorem modesOnly_setMemb {r : Ref} {cn cn' : ChannelNick} (hcn : s.membHeap r = some cn)
    (hg : cn'.globalNick = cn.globalNick) : ModesOnly c s (s.setMemb r cn') where
  next := rfl
  info := rfl
  others := fun _ _ => rfl
  members := by
    intro name
    have test : ∀ info w x, (do
          let cn ← (s.setMemb r cn').memb x
          let n ← (s.setMemb r cn').nick cn.globalNick
          ircEq info n.nick (some w)) = (do
          let cn ← s.memb x
          let n ← s.nick cn.globalNick
          ircEq info n.nick (some w)) := by
      intro info w x
      by_cases hx : x = r
      · subst hx
        rw [NetworkState.memb_eq (Heap.set_same _ _ _), NetworkState.memb_eq hcn, ok_bind, ok_bind, hg]
        rfl
      · rw [NetworkState.memb, NetworkState.setMemb_membHeap, Heap.set_other hx]
        rfl
    unfold findChannelNick findMember
    simp only [test]
    rfl

/-! ### The letters of a mode change -/

theorem nicklistRemoveEntry_masks (old : List NicklistEntry) (mask : Str) :
    Ensures (nicklistRemoveEntry old mask) (fun new => ∀ bans : List Str,
      old.map (·.hostmask) = bans.map some → new.map (·.hostmask) = (bans.erase mask).map some)
      fun _ => True := by
  induction old with
  | nil =>
      intro bans h
      have : bans = [] := by simpa using h.symm
      subst this
      rfl
  | cons e old ih =>
      unfold nicklistRemoveEntry
      cases he : e.hostmask with
      | none => trivial
      | some x =>
          dsimp only
          -- the first ban of the server is the mask of this entry
          have head : ∀ bans : List Str, (e :: old).map (·.hostmask) = bans.map some →
              ∃ bans', bans = x :: bans' ∧ old.map (·.hostmask) = bans'.map some := by
            intro bans h
            cases bans with
            | nil => cases h
            | cons b bans =>
                simp only [List.map_cons, List.cons.injEq] at h
                rw [he] at h
                exact ⟨bans, by rw [Option.some.inj h.1], h.2⟩
          split
          · next hx =>
            intro bans h
            obtain ⟨bans', rfl, h'⟩ := head bans h
            rw [hx, List.erase_cons_head]
            exact h'
          · next hx =>
            refine ih.bind fun new hnew => ?_
            intro bans h
            obtain ⟨bans', rfl, h'⟩ := head bans h
            rw [List.erase_cons_tail (by simpa using hx)]
            simp only [List.map_cons, he, hnew bans' h']

theorem changeMasks_masks (mask : Str) (old : List NicklistEntry) :
    Ensures (changeMasks now by' set mask s old) (fun new => ∀ bans : List Str,
      old.map (·.hostmask) = bans.map some →
        new.map (·.hostmask) = (if set then bans ++ [mask] else bans.erase mask).map some)
      fun _ => True := by
  unfold changeMasks
  split
  · have named : Ensures (setterNick s by') (fun _ => True) fun _ => True := by
      cases setterNick s by' <;> trivial
    refine named.bind fun name _ => ?_
    intro bans h
    simp only [nicklistAddEntry, List.map_append, h, List.map_cons, List.map_nil]
  · exact nicklistRemoveEntry_masks old mask

/-- The first listing is over, or this is no change of a ban. -/
def Calm (v : BanView) (P : Prop) : Prop := v.listing = true → v.complete = false → P

theorem changeNicklist_bans (hv : Held c v s) (a : Str) (hq : Calm v (m ≠ chr 'b')) :
    Ensures (changeNicklist now by' c set m (some a) s) (fun r => r.2 = some 1 ∧
      ModesOnly c s r.1 ∧ Held c (if m = chr 'b' then v.change (set, a) else v) r.1)
      fun _ => True := by
  obtain ⟨ch, hch, hheld⟩ := hv
  simp only [BanView.HeldBy, heldBans, Prod.mk.injEq] at hheld
  obtain ⟨hpresent, hstarted, hmasks⟩ := hheld
  refine Ensures.bind (Q := fun i => modeSlot m = .ok i) (by cases modeSlot m <;> trivial) ?_
  intro i hi
  have slot : m = chr 'b' ↔ i = banSlot := by
    unfold modeSlot at hi
    split at hi
    · cases hi
      constructor
      · rintro rfl
        rfl
      · intro h
        apply Subtype.ext
        exact congrArg (fun j : Fin MAXMODES => j.1) h
    · cases hi
  rw [NetworkState.chan_eq hch, ok_bind]
  split
  · next hset =>
    refine (changeMasks_masks a (ch.chanmodeNicklist i)).bind fun new hnew => ?_
    refine ⟨rfl, modesOnly_setChan hch rfl rfl, _, Heap.set_same _ _ _, ?_⟩
    by_cases hb : m = chr 'b'
    · have hib := slot.mp hb
      subst hib
      have complete : v.complete = true := by rw [← hpresent, hset]
      rw [if_pos hb]
      simp only [BanView.HeldBy, heldBans, BanView.change, complete, true_or, if_pos, ModeArray.set,
        hnew v.bans hmasks, hset, hstarted]
    · rw [if_neg hb]
      have hib : banSlot ≠ i := fun e => hb (slot.mpr e.symm)
      simp only [BanView.HeldBy, heldBans, Prod.mk.injEq, ModeArray.set, if_neg hib]
      exact ⟨hpresent, hstarted, hmasks⟩
  · next hset =>
    refine ⟨rfl, .refl c s, ch, hch, ?_⟩
    have same : (if m = chr 'b' then v.change (set, a) else v) = v := by
      by_cases hb : m = chr 'b'
      · have hib := slot.mp hb
        subst hib
        have complete : v.complete = false := by rw [← hpresent]; simpa using hset
        have listing : v.listing = false := by
          cases hl : v.listing with
          | false => rfl
          | true => exact absurd hb (hq hl complete)
        rw [if_pos hb, BanView.change, if_neg (by simp [complete, listing])]
      · rw [if_neg hb]
    rw [same]
    simp only [BanView.HeldBy, heldBans, Prod.mk.injEq]
    exact ⟨hpresent, hstarted, hmasks⟩

/-- A change at the channel that is not one of its bans. -/
def BansKept (c : Ref) (v : BanView) (s s' : NetworkState) : Prop := ModesOnly c s s' ∧ Held c v s'

theorem setOption_bans (hv : Held c v s) (x : Option Str) :
    Ensures (setOption c m x s) (BansKept c v s) fun _ => True := by
  obtain ⟨ch, hch, hheld⟩ := hv
  refine Ensures.bind (Q := fun _ => True) (by cases modeSlot m <;> trivial) fun i _ => ?_
  refine (NetworkState.modifyChan_ensures open_faults c _).imp ?_
  rintro _ ⟨ch', hch', rfl⟩
  cases hch.symm.trans hch'
  exact ⟨modesOnly_setChan hch rfl rfl, _, Heap.set_same _ _ _, hheld⟩

theorem changeSetting_bans (hv : Held c v s) (x : Option Str) :
    Ensures (changeSetting c set m x s)
      (fun r => (x.isSome → r.2 = some (if set then 1 else 0)) ∧ BansKept c v s r.1)
      fun _ => True := by
  unfold changeSetting
  split
  · cases x with
    | none => exact ⟨nofun, .refl c s, hv⟩
    | some x => exact (setOption_bans hv (some x)).bind fun s' h => ⟨fun _ => rfl, h⟩
  · exact (setOption_bans hv none).bind fun s' h => ⟨fun _ => rfl, h⟩

theorem changePrefixMode_bans (hv : Held c v s) (x : Option Str) :
    Ensures (changePrefixMode c set m x s) (fun r => BansKept c v s r.1 ∧ ∀ a ∈ x,
      r.2 = some 1 ∨ (r.2 = none ∧ findChannelNick s c a = .ok none)) fun _ => True := by
  unfold changePrefixMode
  cases x with
  | none => exact ⟨⟨.refl c s, hv⟩, nofun⟩
  | some a =>
      refine Ensures.bind (Q := fun r => findChannelNick s c a = .ok r)
        (by cases findChannelNick s c a <;> trivial) fun r hr => ?_
      cases r with
      | none => exact ⟨⟨.refl c s, hv⟩, fun b hb => .inr ⟨rfl, by cases hb; exact hr⟩⟩
      | some n =>
          refine (NetworkState.memb_ensures open_faults n).bind fun cn hcn => ?_
          refine Ensures.bind (Q := fun _ => True)
            (by cases modesChangeMode cn.modes set m <;> trivial) fun modes _ => ?_
          exact ⟨⟨modesOnly_setMemb hcn rfl, hv⟩, fun _ _ => .inl rfl⟩

theorem changeBool_bans (hv : Held c v s) :
    Ensures (changeBool c set m s) (fun r => r.2 = some 0 ∧ BansKept c v s r.1) fun _ => True := by
  obtain ⟨ch, hch, hheld⟩ := hv
  unfold changeBool
  rw [NetworkState.chan_eq hch, ok_bind]
  refine Ensures.bind (Q := fun _ => True) (by cases modesChangeMode ch.modes set m <;> trivial) ?_
  intro modes _
  exact ⟨rfl, modesOnly_setChan hch rfl rfl, _, Heap.set_same _ _ _, hheld⟩

/-- How many arguments the code counts for a letter that has one. -/
def counted (info : NetworkInfo) (set : Bool) (m : Byte) : ℕ :=
  if networkChanmodeType m info = .ok .setting ∧ set = false then 0
  else if expectsArg info set m then 1 else 0

/-- A letter with an argument changes the bans if it is a ban, and counts its arguments. -/
theorem channelStateChangeMode_some (hv : Held c v s) (a : Str)
    (hq : Calm v (¬ isBan s.info m)) :
    Ensures (channelStateChangeMode now by' c set m (some a) s)
      (fun r => BansKept c (if isBan s.info m then v.change (set, a) else v) s r.1 ∧
        (r.2 = some (counted s.info set m) ∨
          (r.2 = none ∧ isStatus s.info m = true ∧ findChannelNick s c a = .ok none)))
      fun _ => True := by
  have status (hs : isStatus s.info m = true) (hc : counted s.info set m = 1) :
      Ensures (changePrefixMode c set m (some a) s) (fun r => BansKept c v s r.1 ∧
        (r.2 = some (counted s.info set m) ∨
          (r.2 = none ∧ isStatus s.info m = true ∧ findChannelNick s c a = .ok none)))
        fun _ => True := by
    rw [hc]
    refine (changePrefixMode_bans hv (some a)).imp ?_
    rintro r ⟨hkept, hr⟩
    rcases hr a rfl with hr | ⟨hr, hnone⟩
    · exact ⟨hkept, .inl hr⟩
    · exact ⟨hkept, .inr ⟨hr, hs, hnone⟩⟩
  refine Ensures.bind (Q := fun t => networkChanmodeType m s.info = .ok t)
    (by cases networkChanmodeType m s.info <;> trivial) fun t ht => ?_
  cases t with
  | nicklist =>
      have hban : isBan s.info m ↔ m = chr 'b' := by simp [isBan, ht]
      rw [if_pos rfl]
      refine (changeNicklist_bans hv a (fun hl hc => (hban.not.mp (hq hl hc)))).imp ?_
      rintro r ⟨hr, hm, hheld⟩
      refine ⟨⟨hm, ?_⟩, .inl ?_⟩
      · simpa only [hban] using hheld
      · simp [hr, counted, expectsArg, ht]
  | setting | optSetting =>
      rw [if_neg (by decide), if_pos (by decide), if_neg (by simp [isBan, ht])]
      refine (changeSetting_bans hv (some a)).imp ?_
      rintro r ⟨hr, hkept⟩
      refine ⟨hkept, .inl ?_⟩
      cases set <;> simp [hr rfl, counted, expectsArg, ht]
  | bool =>
      have hb : ¬ isBan s.info m := by simp [isBan, ht]
      rw [if_neg (by decide), if_neg (by decide), if_neg hb]
      split
      · next hp => exact status (by simp [isStatus, ht, hp]) (by simp [counted, expectsArg, ht, hp])
      · next hp =>
        rw [if_pos rfl]
        refine (changeBool_bans hv).imp ?_
        rintro r ⟨hr, hkept⟩
        exact ⟨hkept, .inl (by simp [hr, counted, expectsArg, ht, hp])⟩
  | unknown =>
      have hb : ¬ isBan s.info m := by simp [isBan, ht]
      rw [if_neg (by decide), if_neg (by decide), if_neg hb]
      split
      · next hp => exact status (by simp [isStatus, ht, hp]) (by simp [counted, expectsArg, ht])
      · rw [if_neg (by decide)]
        exact ⟨⟨.refl c s, hv⟩, .inl (by simp [counted, expectsArg, ht])⟩

/-- A letter without an argument changes no bans. -/
theorem channelStateChangeMode_none (hv : Held c v s) :
    Ensures (channelStateChangeMode now by' c set m none s) (fun r => BansKept c v s r.1)
      fun _ => True := by
  refine Ensures.bind (Q := fun _ => True) (by cases networkChanmodeType m s.info <;> trivial) ?_
  intro t _
  split
  · exact ⟨.refl c s, hv⟩
  split
  · exact (changeSetting_bans hv none).imp fun _ h => h.2
  split
  · exact (changePrefixMode_bans hv none).imp fun _ h => h.1
  split
  · exact (changeBool_bans hv).imp fun _ h => h.2
  · exact ⟨.refl c s, hv⟩

/-! ### The loop over the letters -/

variable {s₀ : NetworkState} {l : IrcLine}

/-- What is left of the arguments, at an argument. -/
theorem drop_of_getElem? {arg : ℕ} {o : Option Str} (h : l.args[arg]? = o) :
    l.args.drop arg = match o with
      | some a => a :: l.args.drop (arg + 1)
      | none => [] := by
  cases o with
  | none => exact List.drop_eq_nil_of_le (List.getElem?_eq_none_iff.mp h)
  | some a =>
      obtain ⟨hlt, rfl⟩ := List.getElem?_eq_some_iff.mp h
      exact List.drop_eq_getElem_cons hlt

theorem IrcLine.arg_ok (arg : ℕ) :
    Ensures (l.arg arg) (fun o => l.args[arg]? = o) fun _ => True := by
  unfold IrcLine.arg
  split <;> trivial

/-- The rest of the loop after a letter. -/
theorem channelModeLoop_letter {w : Str} {arg : ℕ} {Q : NetworkState → Prop}
    (hp : m ≠ chr '+') (hm : m ≠ chr '-')
    (h : ∀ o, l.args[arg]? = o → Ensures (channelStateChangeMode now by' c set m o s)
      (fun r => match r.2 with
        | none => Q r.1
        | some n => Ensures (channelModeLoop now l by' c w set (if o.isSome then arg + n else arg) r.1)
            Q fun _ => True) fun _ => True) :
    Ensures (channelModeLoop now l by' c (m :: w) set arg s) Q fun _ => True := by
  rw [channelModeLoop_change hp hm]
  refine (IrcLine.arg_ok arg).bind fun o ho => (h o ho).bind ?_
  rintro ⟨s', ret⟩ hr
  cases ret with
  | none => exact hr
  | some n => exact hr

/-- Letters that are no bans change none. -/
theorem channelModeLoop_no_bans {w : Str} {arg : ℕ} (h₀ : BansKept c v s₀ s) (hw : chr 'b' ∉ w) :
    Ensures (channelModeLoop now l by' c w set arg s) (BansKept c v s₀) fun _ => True := by
  induction w generalizing set arg s with
  | nil => exact h₀
  | cons m w ih =>
      obtain ⟨hne, hw⟩ := not_or.mp (mt List.mem_cons.mpr hw)
      by_cases hsign : m = chr '+' ∨ m = chr '-'
      · rw [channelModeLoop_sign hsign]
        exact ih h₀ hw
      obtain ⟨hp, hm⟩ := not_or.mp hsign
      refine channelModeLoop_letter hp hm fun o _ => ?_
      have letter : Ensures (channelStateChangeMode now by' c set m o s)
          (fun r => BansKept c v s r.1) fun _ => True := by
        cases o with
        | none => exact channelStateChangeMode_none h₀.2
        | some a =>
            have hb : ¬ isBan s.info m := fun h => hne h.1.symm
            refine (channelStateChangeMode_some h₀.2 a fun _ _ => hb).imp fun r hr => ?_
            rw [if_neg hb] at hr
            exact hr.1
      refine letter.imp fun r hr => ?_
      have h₁ : BansKept c v s₀ r.1 := ⟨h₀.1.trans hr.1, hr.2⟩
      cases r.2 with
      | none => exact h₁
      | some n => exact ih h₁ hw

/-- Letters without arguments change no bans. -/
theorem channelModeLoop_exhausted {w : Str} {arg : ℕ} (h₀ : BansKept c v s₀ s)
    (harg : l.args[arg]? = none) :
    Ensures (channelModeLoop now l by' c w set arg s) (BansKept c v s₀) fun _ => True := by
  induction w generalizing set s with
  | nil => exact h₀
  | cons m w ih =>
      by_cases hsign : m = chr '+' ∨ m = chr '-'
      · rw [channelModeLoop_sign hsign]
        exact ih h₀
      obtain ⟨hp, hm⟩ := not_or.mp hsign
      refine channelModeLoop_letter hp hm fun o ho => ?_
      rw [harg] at ho
      subst ho
      refine (channelStateChangeMode_none h₀.2).imp fun r hr => ?_
      have h₁ : BansKept c v s₀ r.1 := ⟨h₀.1.trans hr.1, hr.2⟩
      cases r.2 with
      | none => exact h₁
      | some n => exact ih h₁

theorem banChanges_no_ban {info : NetworkInfo} {w : Str} (hw : chr 'b' ∉ w) (args : List Str) :
    banChanges info set w args = [] := by
  induction w generalizing set args with
  | nil => rfl
  | cons m w ih =>
      obtain ⟨hne, hw⟩ := not_or.mp (mt List.mem_cons.mpr hw)
      have hb : ¬ isBan info m := fun h => hne h.1.symm
      cases args with
      | nil => rfl
      | cons a args =>
          rw [banChanges]
          split_ifs
          · exact ih hw _
          · exact ih hw _
          · exact ih hw _
          · exact ih hw _

theorem BanView.change_flags (v : BanView) (p : Bool × Str) :
    (v.change p).complete = v.complete ∧ (v.change p).listing = v.listing := by
  unfold BanView.change
  split <;> exact ⟨rfl, rfl⟩

theorem isBan.expectsArg {info : NetworkInfo} (h : isBan info m) : expectsArg info set m = true := by
  simp only [Ctrlproxy.expectsArg, h.2]

theorem expectsArg_of_isStatus {info : NetworkInfo} (h : isStatus info m = true) :
    expectsArg info set m = true := by
  unfold isStatus at h
  unfold expectsArg
  cases ht : networkChanmodeType m info with
  | error e => rfl
  | ok t => cases t <;> simp_all

/-- The view after a letter, and what is left of the change. -/
theorem Calm.letter {info : NetworkInfo} {a : Str} {cs : List (Bool × Str)}
    (hq : Calm v ((if isBan info m then (set, a) :: cs else cs) = [])) :
    Calm (if isBan info m then v.change (set, a) else v) (cs = []) := by
  intro hl hc
  split at hl
  · next hb =>
    rw [if_pos hb, (v.change_flags _).1] at hc
    rw [(v.change_flags _).2] at hl
    have hnil := hq hl hc
    rw [if_pos hb] at hnil
    cases hnil
  · next hb =>
    rw [if_neg hb] at hc
    simpa only [if_neg hb] using hq hl hc

theorem foldl_letter {info : NetworkInfo} {a : Str} {cs : List (Bool × Str)} :
    (if isBan info m then (set, a) :: cs else cs).foldl BanView.change v =
      cs.foldl .change (if isBan info m then v.change (set, a) else v) := by
  split <;> rfl

/-- A change that is read as it is meant changes the bans it is meant to change. -/
theorem channelModeLoop_bans {w : Str} {arg : ℕ} (h₀ : BansKept c v s₀ s)
    (hread : Readable s₀ c set w (l.args.drop arg))
    (hq : Calm v (banChanges s₀.info set w (l.args.drop arg) = [])) :
    Ensures (channelModeLoop now l by' c w set arg s)
      (BansKept c ((banChanges s₀.info set w (l.args.drop arg)).foldl .change v) s₀)
      fun _ => True := by
  induction w generalizing set arg s v with
  | nil => exact h₀
  | cons m w ih =>
      cases ho : l.args[arg]? with
      | none =>
          rw [drop_of_getElem? ho]
          exact channelModeLoop_exhausted h₀ ho
      | some a =>
          have hdrop : l.args.drop arg = a :: l.args.drop (arg + 1) := drop_of_getElem? ho
          by_cases hp : m = chr '+'
          · rw [hdrop, Readable, if_pos hp, ← hdrop] at hread
            rw [hdrop, banChanges, if_pos hp, ← hdrop] at hq ⊢
            rw [channelModeLoop_plus hp]
            exact ih h₀ hread hq
          by_cases hm : m = chr '-'
          · rw [hdrop, Readable, if_neg hp, if_pos hm, ← hdrop] at hread
            rw [hdrop, banChanges, if_neg hp, if_pos hm, ← hdrop] at hq ⊢
            rw [channelModeLoop_minus hp hm]
            exact ih h₀ hread hq
          rw [hdrop, Readable, if_neg hp, if_neg hm] at hread
          rw [hdrop, banChanges, if_neg hp, if_neg hm] at hq ⊢
          refine channelModeLoop_letter hp hm fun o ho' => ?_
          rw [ho] at ho'
          subst ho'
          have hinfo := h₀.1.info
          have quiet : Calm v (¬ isBan s.info m) := by
            intro hl hc hban
            have hnil := hq hl hc
            rw [hinfo] at hban
            rw [if_pos hban.expectsArg, if_pos hban] at hnil
            cases hnil
          refine (channelStateChangeMode_some h₀.2 a quiet).imp ?_
          rintro ⟨s', ret⟩ ⟨hkept, hret⟩
          rw [hinfo] at hkept hret
          have h₁ : BansKept c _ s₀ s' := ⟨h₀.1.trans hkept.1, hkept.2⟩
          by_cases hset : networkChanmodeType m s₀.info = .ok .setting ∧ set = false
          · -- the argument of a removed setting: the code may give it to any letter, but to no ban
            rw [if_pos hset] at hread
            have hb : ¬ isBan s₀.info m := by simp [isBan, hset.1]
            have htakes : expectsArg s₀.info set m = true := by simp [expectsArg, hset.1]
            rw [if_pos htakes, if_neg hb, banChanges_no_ban hread]
            rw [if_neg hb] at h₁
            cases ret with
            | none => exact h₁
            | some n => exact channelModeLoop_no_bans h₁ hread
          rw [if_neg hset] at hread
          by_cases htakes : expectsArg s₀.info set m = true
          · rw [if_pos htakes] at hread hq ⊢
            obtain ⟨hstatus, hread⟩ := hread
            rw [foldl_letter]
            rcases hret with hret | ⟨hret, hs, hnone⟩
            · have hcount : ret = some 1 := by
                refine Eq.trans hret ?_
                rw [counted, if_neg hset, if_pos htakes]
              subst hcount
              exact ih h₁ hread hq.letter
            · subst hret
              rw [h₀.1.members] at hnone
              rw [hstatus hs hnone]
              exact h₁
          · rw [if_neg htakes] at hread hq ⊢
            have hb : ¬ isBan s₀.info m := fun h => htakes h.expectsArg
            rw [if_neg hb] at h₁
            rcases hret with hret | ⟨-, hs, -⟩
            · have hcount : ret = some 0 := by
                refine Eq.trans hret ?_
                rw [counted, if_neg hset, if_neg htakes]
              subst hcount
              rw [← hdrop] at hread hq ⊢
              exact ih h₁ hread hq
            · exact absurd (expectsArg_of_isStatus hs) htakes

/-! ### Lines -/

variable {g : BanViews}

/-- The slot of the letter of a listing. -/
def MaskList.slot (k : MaskList) : Fin MAXMODES := ⟨k.letter.1, by cases k <;> decide⟩

theorem MaskList.modeSlot_letter (k : MaskList) : modeSlot k.letter = .ok k.slot := by
  cases k <;> decide

theorem MaskList.letter_inj {k k' : MaskList} (h : k.letter = k'.letter) : k = k' := by
  cases k <;> cases k' <;> first | rfl | exact absurd h (by decide)

/-- What a channel holds of a list: whether it was told, whether it is being told, and the masks. -/
def heldMasks (k : MaskList) (ch : ChannelState) : Bool × Bool × List (Option Str) :=
  (ch.chanmodeNicklistPresent k.slot, k.started ch, (ch.chanmodeNicklist k.slot).map (·.hostmask))

theorem heldMasks_reading (k : MaskList) : ListReading (heldMasks k) (false, false, []) where
  fresh := fun _ => by cases k <;> rfl
  lists := by
    intro ch ch' hn hp hs
    rw [heldMasks, heldMasks, hn, hp, hs]

theorem heldBans_reading : ListReading heldBans (false, false, []) := heldMasks_reading .banlist

/-- A slot of another list. -/
theorem MaskList.slot_ne {k k' : MaskList} {i : Fin MAXMODES} (hk : k' ≠ k) (hi : i.1 = k'.letter.1) :
    k.slot ≠ i := by
  rintro rfl
  exact hk (letter_inj (Subtype.ext hi.symm))

theorem MaskList.setStarted_other {k k' : MaskList} {ch : ChannelState} (hk : k' ≠ k) (b : Bool) :
    k.started (k'.setStarted ch b) = k.started ch := by
  cases k <;> cases k' <;> first | rfl | exact absurd rfl hk

/-- The other two listings are kept elsewhere. -/
theorem heldMasks_addMask {k k' : MaskList} {i : Fin MAXMODES} {ch : ChannelState}
    {mask by' : Option Str} {at' : Long} (hk : k' ≠ k) (hi : i.1 = k'.letter.1) :
    heldMasks k (addMask k' i mask by' at' ch) = heldMasks k ch := by
  have started : k.started (addMask k' i mask by' at' ch) = k.started ch := by
    refine Eq.trans ?_ (MaskList.setStarted_other hk true)
    cases k <;> rfl
  have present : (addMask k' i mask by' at' ch).chanmodeNicklistPresent =
      ch.chanmodeNicklistPresent := by
    cases k' <;> rfl
  rw [heldMasks, heldMasks, started, present]
  simp only [addMask, ModeArray.set, if_neg (MaskList.slot_ne hk hi)]

theorem heldMasks_ended {k k' : MaskList} {i : Fin MAXMODES} {ch : ChannelState}
    (hk : k' ≠ k) (hi : i.1 = k'.letter.1) :
    heldMasks k { k'.setStarted ch false with
      chanmodeNicklistPresent := ModeArray.set ch.chanmodeNicklistPresent i true } =
      heldMasks k ch := by
  have started : k.started { k'.setStarted ch false with
      chanmodeNicklistPresent := ModeArray.set ch.chanmodeNicklistPresent i true } = k.started ch := by
    refine Eq.trans ?_ (MaskList.setStarted_other hk false)
    cases k <;> rfl
  have masks : (k'.setStarted ch false).chanmodeNicklist = ch.chanmodeNicklist := by cases k' <;> rfl
  rw [heldMasks, heldMasks, started]
  simp only [masks, ModeArray.set, if_neg (MaskList.slot_ne hk hi)]

/-- A line that leaves the bans of every channel. -/
theorem Tracks.kept (h : Tracks s g) (hk : ChansKept heldBans (false, false, []) s s') : Tracks s' g where
  held := by
    intro r ch' hch'
    rcases hk.chan r ch' hch' with ⟨ch, hch, he⟩ | ⟨hr, he⟩
    · exact he.trans (h.held r ch hch)
    · rw [BanView.HeldBy, he, h.new r hr]
      rfl
  new := fun r hr => h.new r (hk.next.trans hr)
  quiet := h.quiet

theorem BanView.HeldBy.entry {ch : ChannelState} (h : v.HeldBy ch) (x : Str) (by' : Option Str)
    (at' : Long) :
    (v.entry x).HeldBy (addMask .banlist banSlot (some x) by' at' ch) := by
  simp only [BanView.HeldBy, heldBans, Prod.mk.injEq] at h
  obtain ⟨hpresent, hstarted, hmasks⟩ := h
  have slot : ∀ l, ModeArray.set ch.chanmodeNicklist banSlot l banSlot = l := fun l => if_pos rfl
  simp only [BanView.HeldBy, heldBans, addMask, MaskList.setStarted, MaskList.started, slot,
    BanView.entry, Prod.mk.injEq, nicklistAddEntry, List.map_append, hstarted]
  refine ⟨hpresent, trivial, ?_⟩
  cases v.listing with
  | false => rfl
  | true => simp only [if_true, hmasks, List.map_cons, List.map_nil]

theorem BanView.HeldBy.ended {ch : ChannelState} (h : v.HeldBy ch)
    (hempty : ch.banlistStarted = false → ch.chanmodeNicklist banSlot = []) :
    v.ended.HeldBy { ch with
      banlistStarted := false
      chanmodeNicklistPresent := ModeArray.set ch.chanmodeNicklistPresent banSlot true } := by
  simp only [BanView.HeldBy, heldBans, Prod.mk.injEq] at h
  obtain ⟨hpresent, hstarted, hmasks⟩ := h
  have slot : ModeArray.set ch.chanmodeNicklistPresent banSlot true banSlot = true := if_pos rfl
  simp only [BanView.HeldBy, heldBans, BanView.ended, Prod.mk.injEq, slot, true_and]
  cases hl : v.listing with
  | true => exact hmasks
  | false =>
      rw [hempty (hstarted.trans hl)]
      rfl

/-- Nothing is kept where nothing was told. -/
theorem changes_quiet {cs : List (Bool × Str)}
    (h : v.complete = false → v.listing = false → v.bans = []) :
    (cs.foldl BanView.change v).complete = false → (cs.foldl BanView.change v).listing = false →
      (cs.foldl BanView.change v).bans = [] := by
  induction cs generalizing v with
  | nil => exact h
  | cons p cs ih =>
      refine ih fun hc hl => ?_
      rw [(v.change_flags p).1] at hc
      rw [(v.change_flags p).2] at hl
      rw [BanView.change, if_neg (by simp [hc, hl])]
      exact h hc hl

/-- A line about the bans of one channel. -/
theorem Tracks.update (h : Tracks s g) (hv : Held c v s') (hnext : s'.next = s.next)
    (hc : c < s.next) (hothers : ∀ r, r ≠ c → s'.chanHeap r = s.chanHeap r)
    (hquiet : v.complete = false → v.listing = false → v.bans = []) :
    Tracks s' (Function.update g c v) where
  held := by
    intro r ch hch
    by_cases hr : r = c
    · subst hr
      obtain ⟨ch', hch', hheld⟩ := hv
      rw [Function.update_self]
      cases hch'.symm.trans hch
      exact hheld
    · rw [Function.update_of_ne hr]
      rw [hothers r hr] at hch
      exact h.held r ch hch
  new := by
    intro r hr
    rw [hnext] at hr
    rw [Function.update_of_ne (hc.trans_le hr).ne']
    exact h.new r hr
  quiet := by
    intro r
    by_cases hr : r = c
    · subst hr
      rw [Function.update_self]
      exact hquiet
    · rw [Function.update_of_ne hr]
      exact h.quiet r

theorem onChannel_found {name : Str} {f : BanView → BanView}
    (h : findChannel s name = .ok (some c)) :
    onChannel s (some name) f g = Function.update g c (f (g c)) := by
  rw [onChannel, h]

theorem onChannel_unknown {name : Str} {f : BanView → BanView}
    (h : findChannel s name = .ok none) : onChannel s (some name) f g = g := by
  rw [onChannel, h]

/-- A handler that looks for a channel first, and changes what is known of its bans. -/
theorem tracks_found (hg : Graph s) (h : Tracks s g) {name : Str} {f : BanView → BanView}
    {k : Ref → Except Fault NetworkState}
    (hk : ∀ c ch, findChannel s name = .ok (some c) → s.chanHeap c = some ch → c < s.next →
      Ensures (k c) (fun s' => Tracks s' (Function.update g c (f (g c)))) fun _ => True) :
    Ensures (findChannel s name >>= fun o => match o with
      | none => pure s
      | some c => k c) (fun s' => Tracks s' (onChannel s (some name) f g)) fun _ => True := by
  obtain ⟨o, ho, hmem⟩ := (findChannel_total hg name).exists_ok
  rw [ho, ok_bind]
  cases o with
  | none =>
      rw [onChannel_unknown ho]
      exact h
  | some c =>
      obtain ⟨ch, hch, -⟩ := hg.chan_live c (hmem c rfl)
      rw [onChannel_found ho]
      exact hk c ch ho hch (hg.channel_lt (hmem c rfl))

theorem handleBanlistEntry_tracks (hg : Graph s) (h : Tracks s g) (hargc : 3 < l.argc) :
    Ensures (handleBanlistEntry s l)
      (fun s' => Tracks s' (onChannel s l.args[2]? (fun v => v.entry (l.args[3]?.getD [])) g))
      fun _ => True := by
  refine (IrcLine.argStr_ensures open_faults 2).bind fun name hname => ?_
  rw [hname]
  refine tracks_found hg h fun c ch hc hch hlt => ?_
  have hslot : modeSlot MaskList.banlist.letter = .ok banSlot := modeSlot_ban
  rw [hslot, ok_bind]
  refine (IrcLine.arg_ok 3).bind fun mask hmask => ?_
  obtain ⟨x, hx⟩ : ∃ x, l.args[3]? = some x := ⟨_, List.getElem?_eq_getElem hargc⟩
  obtain rfl := hmask.symm.trans hx
  refine (maskSetter_ensures open_faults .banlist).bind fun p _ => ?_
  refine (NetworkState.modifyChan_ensures open_faults c _).imp ?_
  rintro _ ⟨ch', hch', rfl⟩
  obtain rfl := Option.some.inj (hch.symm.trans hch')
  refine h.update ⟨_, Heap.set_same _ _ _, ?_⟩ rfl hlt (fun r hr => Heap.set_other hr) nofun
  rw [hx]
  exact (h.held c ch hch).entry x _ _

theorem handleEndBanlist_tracks (hg : Graph s) (h : Tracks s g)
    (hempty : AtChannel s l.args[2]? fun _ ch =>
      ch.banlistStarted = false → ch.chanmodeNicklist banSlot = []) :
    Ensures (handleEndBanlist s l) (fun s' => Tracks s' (onChannel s l.args[2]? .ended g))
      fun _ => True := by
  refine (IrcLine.argStr_ensures open_faults 2).bind fun name hname => ?_
  rw [hname]
  refine tracks_found hg h fun c ch hc hch hlt => ?_
  have hslot : modeSlot MaskList.banlist.letter = .ok banSlot := modeSlot_ban
  rw [hslot, ok_bind]
  refine (NetworkState.modifyChan_ensures open_faults c _).imp ?_
  rintro _ ⟨ch', hch', rfl⟩
  obtain rfl := Option.some.inj (hch.symm.trans hch')
  refine h.update ⟨_, Heap.set_same _ _ _, ?_⟩ rfl hlt (fun r hr => Heap.set_other hr) nofun
  exact (h.held c ch hch).ended (hempty name hname c ch hc hch)

theorem exists_cons_cons_cons {xs : List Str} {a b : Str} (ha : xs[1]? = some a)
    (hb : xs[2]? = some b) : ∃ x, xs = x :: a :: b :: xs.drop 3 := by
  rcases xs with _ | ⟨x, _ | ⟨a', _ | ⟨b', xs⟩⟩⟩
  · cases ha
  · cases ha
  · cases hb
  · cases ha
    cases hb
    exact ⟨x, rfl⟩

theorem onChannel_id (name : Option Str) : onChannel s name (fun v => v) g = g := by
  unfold onChannel
  split
  · rfl
  · split
    · exact Function.update_eq_self _ g
    · rfl

/-- A mode line for a channel, with the changes it is read as. -/
theorem modeLineBans_eq {cmd target change : Str} {args : List Str}
    (hl : l.args = cmd :: target :: change :: args)
    (hchan : isChannelname target s.info = .ok true) :
    modeLineBans s l = banChanges s.info true change args := by
  rw [modeLineBans, hl]
  exact if_pos hchan

theorem handleMode_tracks (hg : Graph s) (h : Tracks s g)
    (hmode : AtChannel s l.args[1]? fun c ch =>
      (ch.banlistStarted = true → ch.chanmodeNicklistPresent banSlot = false →
        modeLineBans s l = []) ∧ Readable s c true (l.args[2]?.getD []) (l.args.drop 3)) :
    Ensures (handleMode now s l)
      (fun s' => Tracks s' (onChannel s l.args[1]? (fun v => (modeLineBans s l).foldl .change v) g))
      fun _ => True := by
  refine (IrcLine.argStr_ensures open_faults 1).bind fun target htarget => ?_
  refine (IrcLine.argStr_ensures open_faults 2).bind fun change hchange => ?_
  obtain ⟨cmd, hl⟩ := exists_cons_cons_cons htarget hchange
  refine Ensures.bind (Q := fun b => isChannelname target s.info = .ok b)
    (by cases isChannelname target s.info <;> trivial) fun b hb => ?_
  cases b with
  | false =>
      -- a user changes a mode of their own
      have none : modeLineBans s l = [] := by
        rw [modeLineBans, hl]
        exact if_neg (by rw [hb]; decide)
      have same : onChannel s l.args[1]? (fun v => (modeLineBans s l).foldl .change v) g = g := by
        rw [none]
        exact onChannel_id _
      rw [same]
      refine (findAddNetworkNick_chans target).bind fun r hr => ?_
      refine (NetworkState.nick_ensures open_faults r.1).bind fun n _ => ?_
      refine Ensures.bind (Q := fun _ => True) (by cases changeModes true n.modes change <;> trivial)
        fun modes _ => ?_
      exact h.kept (hr.kept.trans (ChansSame.kept ⟨le_rfl, rfl⟩))
  | true =>
      rw [if_pos rfl, htarget]
      refine tracks_found hg h fun c ch hc hch hlt => ?_
      refine (lineGetNick_ensures open_faults).bind fun byName _ => ?_
      refine (findNetworkNick_ensures open_faults byName).bind fun by' _ => ?_
      obtain ⟨hquiet, hread⟩ := hmode target htarget c ch hc hch
      rw [hchange] at hread
      rw [modeLineBans_eq hl hb] at hquiet ⊢
      have hheld := h.held c ch hch
      have settled : Calm (g c) (banChanges s.info true change (l.args.drop 3) = []) := by
        intro hlist hcomplete
        simp only [BanView.HeldBy, heldBans, Prod.mk.injEq] at hheld
        exact hquiet (hheld.2.1.trans hlist) (hheld.1.trans hcomplete)
      have start : BansKept c (g c) s s := ⟨.refl c s, ch, hch, hheld⟩
      refine (channelModeLoop_bans start hread settled).imp fun s' hs' => ?_
      exact h.update hs'.2 hs'.1.next hlt hs'.1.others (changes_quiet (h.quiet c))


/-- The user joins channels of which nothing was told. -/
theorem ownJoins_unknown (hg : Graph s) (h : Tracks s g)
    (hjoin : ∀ name ∈ ownJoins s l, AtChannel s (some name) fun _ ch =>
      ch.chanmodeNicklistPresent banSlot = false ∧ ch.banlistStarted = false) :
    (ownJoins s l).foldl (fun g name => onChannel s (some name) (fun _ => .unknown) g) g = g := by
  have each : ∀ name ∈ ownJoins s l, onChannel s (some name) (fun _ => .unknown) g = g := by
    intro name hname
    obtain ⟨o, ho, hmem⟩ := (findChannel_total hg name).exists_ok
    cases o with
    | none => exact onChannel_unknown ho
    | some c =>
        obtain ⟨ch, hch, -⟩ := hg.chan_live c (hmem c rfl)
        obtain ⟨hpresent, hstarted⟩ := hjoin name hname name rfl c ch ho hch
        have hheld := h.held c ch hch
        simp only [BanView.HeldBy, heldBans, Prod.mk.injEq] at hheld
        have hcomplete : (g c).complete = false := hheld.1.symm.trans hpresent
        have hlisting : (g c).listing = false := hheld.2.1.symm.trans hstarted
        have hbans := h.quiet c hcomplete hlisting
        have unknown : g c = .unknown := by
          cases hgc : g c
          simp_all [BanView.unknown]
        rw [onChannel_found ho, ← unknown, Function.update_eq_self]
  generalize ownJoins s l = names at each
  induction names with
  | nil => rfl
  | cons name names ih =>
      rw [List.foldl_cons, each name List.mem_cons_self]
      exact ih fun n hn => each n (List.mem_cons_of_mem _ hn)

/-- The state holds what the server told after every line that is read as it is meant. -/
theorem Tracks.step (hg : Graph s) (h : Tracks s g) {i : Input} (hl : BanLine s i.2) :
    Ensures (stateStep s i) (fun s' => Tracks s' (banStep s g i.2)) fun _ => True := by
  cases hk : commandOf i.2 with
  | none =>
      unfold stateStep stateHandleData banStep
      rw [hk]
      exact h
  | some k =>
      rw [stateStep_handler hk]
      unfold banStep
      rw [hk]
      have kept : ∀ {x : Except Fault NetworkState},
          Ensures x (ChansKept heldBans (false, false, []) s) (fun _ => True) →
          Ensures x (fun s' => Tracks s' g) fun _ => True := fun hx => hx.imp fun _ => h.kept
      have other (hmode : k ≠ .mode) (hlist : ∀ m : MaskList, k ≠ m.entryCommand ∧ k ≠ m.endCommand) :
          Ensures (k.handler i.1 s i.2) (fun s' => Tracks s' g) fun _ => True :=
        kept (Command.handler_kept heldBans_reading i.1 hmode hlist)
      cases k with
      | join =>
          dsimp only
          rw [ownJoins_unknown hg h (hl.join hk)]
          exact other (by decide) fun m => by cases m <;> decide
      | banlistEntry => exact handleBanlistEntry_tracks hg h (hl.entry hk)
      | endBanlist => exact handleEndBanlist_tracks hg h (hl.ended hk)
      | mode => exact handleMode_tracks hg h (hl.mode hk)
      | invitelistEntry | exceptlistEntry =>
          exact kept (handleMaskEntry_kept _ fun i hi ch _ _ _ =>
            @heldMasks_addMask .banlist _ _ _ _ _ _ (by decide) hi)
      | endInvitelist | endExceptlist =>
          exact kept (handleEndMasks_kept _ fun i hi ch =>
            @heldMasks_ended .banlist _ _ _ (by decide) hi)
      | _ => exact other (by decide) fun m => by cases m <;> decide

/-- In every run of lines that are read as they are meant, the channels hold what the server told. -/
theorem banRun_tracks {nick username hostname : Str} {x : NetworkState × BanViews}
    (h : Reach banRunStep (fun x i => BanLine x.1 i.2)
      (networkStateInit nick username hostname, fun _ => .unknown) x) :
    Graph x.1 ∧ Tracks x.1 x.2 := by
  refine h.invariant (I := fun x => Graph x.1 ∧ Tracks x.1 x.2) ⟨networkStateInit_graph _ _ _, ?_⟩ ?_
  · have empty : ∀ r, (networkStateInit nick username hostname).chanHeap r = none := fun _ => rfl
    refine ⟨fun r ch hch => ?_, fun _ _ => rfl, fun _ _ _ => rfl⟩
    rw [empty] at hch
    cases hch
  · rintro ⟨s, g⟩ i ⟨hg, ht⟩ hl
    have next : Ensures (stateStep s i) (fun s' => Graph s' ∧ Tracks s' (banStep s g i.2))
        fun _ => True :=
      ((stateStep_step hg i).and (ht.step hg hl)).mono (fun _ hs => ⟨hs.1.graph hg, hs.2⟩)
        fun _ _ => trivial
    exact next.bind fun s' hs' => hs'

end

end Ctrlproxy
