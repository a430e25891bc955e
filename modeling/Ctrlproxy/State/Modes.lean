import Ctrlproxy.State.Bans
import Ctrlproxy.State.ModeBounds

/-!
# State — the modes of a channel as the server tells them

`ModeView` is what the lines of a server say about the modes of a channel: which are set, and with
which parameter.  The state keeps the modes in one table and the parameters in another, and the two
handlers write different ones: a 324 reply (`handle_324`) writes the table of modes and drops the
parameters, and a MODE line (`handle_mode`) writes only the parameter of a mode that has one.  So a
channel holds what the server told (`ModeView.HeldBy`) as long as a reply repeats the parameters that
are kept already (`ModesReply`), and a MODE line changes the parameter of a mode that is set, or
removes one that is not (`ModesLine`).
-/

namespace Ctrlproxy
open Outcome

/-! ### What the server said -/

/-- The modes that are set, each with the parameter it has, if it has one. -/
abbrev ModeView := Byte → Option (Option Str)

/-- A letter of a mode change, with its argument. -/
structure ModeChange where
  set : Bool
  mode : Byte
  arg : Option Str
  deriving DecidableEq

/-- Whether a letter comes with an argument, if it was announced. -/
def needsArg (info : NetworkInfo) (set : Bool) (m : Byte) : Option Bool :=
  match networkChanmodeType m info with
  | .ok .nicklist | .ok .setting => some true
  | .ok .optSetting => some set
  | .ok .bool => some (isPrefixMode info m)
  | .ok .unknown => if isPrefixMode info m then some true else none
  | .error _ => none

/-- The letters of a mode change with their arguments, if each was announced and has its own. -/
def modeChanges (info : NetworkInfo) : (set : Bool) → Str → (args : List Str) → Option (List ModeChange)
  | _, [], _ => some []
  | set, m :: w, args =>
      if m = chr '+' then modeChanges info true w args
      else if m = chr '-' then modeChanges info false w args
      else match needsArg info set m with
        | none => none
        | some false => (modeChanges info set w args).map (⟨set, m, none⟩ :: ·)
        | some true => match args with
            | [] => none
            | a :: args => (modeChanges info set w args).map (⟨set, m, some a⟩ :: ·)

/-- A mode of the channel itself: neither a list nor the status of a member. -/
def isOwnMode (info : NetworkInfo) (m : Byte) : Bool :=
  match networkChanmodeType m info with
  | .ok .setting | .ok .optSetting => true
  | .ok .bool => !isPrefixMode info m
  | _ => false

namespace ModeView

/-- No mode is set. -/
def empty : ModeView := fun _ => none

/-- The modes after a letter. -/
def change (info : NetworkInfo) (g : ModeView) (x : ModeChange) : ModeView :=
  if isOwnMode info x.mode then Function.update g x.mode (if x.set then some x.arg else none) else g

end ModeView

/-- The letters of the mode string at argument `k` of a line, with the arguments behind it. -/
def lineChanges (info : NetworkInfo) (l : IrcLine) (k : ℕ) : Option (List ModeChange) :=
  modeChanges info true (l.args[k]?.getD []) (l.args.drop (k + 1))

/-- The modes after the mode string at argument `k` of a line. -/
def toldModes (info : NetworkInfo) (l : IrcLine) (k : ℕ) (g : ModeView) : ModeView :=
  ((lineChanges info l k).getD []).foldl (.change info) g

/-! ### What the state machine says -/

/-- Whether a mode is set. -/
def flagOf (modes : Modes) (m : Byte) : Bool :=
  match modeSlot m with
  | .ok i => modes i
  | .error _ => false

/-- The parameter that is kept for a mode. -/
def paramOf (ch : ChannelState) (m : Byte) : Option Str :=
  match modeSlot m with
  | .ok i => ch.chanmodeOption i
  | .error _ => none

/-- The modes that are set are those of a table. -/
structure ModeView.ShownBy (g : ModeView) (modes : Modes) : Prop where
  nul : modes ⟨0, by decide⟩ = false
  flag : ∀ m, flagOf modes m = true ↔ g m ≠ none

/-- What a channel holds of its modes is what the server told. -/
structure ModeView.HeldBy (g : ModeView) (ch : ChannelState) : Prop where
  shown : g.ShownBy ch.modes
  param : ∀ m p, g m = some (some p) → paramOf ch m = some p

/-! ### Lines read as they are meant -/

/-- The key that a removed setting of class B comes with is not counted. -/
def uncounted (info : NetworkInfo) (x : ModeChange) : Bool :=
  networkChanmodeType x.mode info = .ok .setting ∧ x.set = false

/-- The code looks at the argument of a letter. -/
def reads (info : NetworkInfo) (x : ModeChange) : Bool := x.arg.isSome && !uncounted info x

/-- A letter that the table of modes need not know of: a parameter of a mode that is set, or the
removal of one that is not; and the status of somebody who is on the channel. -/
def Recorded (s : NetworkState) (c : Ref) (g : ModeView) (x : ModeChange) : Prop :=
  match networkChanmodeType x.mode s.info with
  | .ok .setting | .ok .optSetting => (g x.mode).isSome = x.set
  | .ok .bool | .ok .unknown =>
      isPrefixMode s.info x.mode = true → ∀ a ∈ x.arg, findChannelNick s c a ≠ .ok none
  | _ => True

/-- Every letter of a change is one, and none takes the argument of a setting that was removed. -/
def AllRecorded (s : NetworkState) (c : Ref) : ModeView → List ModeChange → Prop
  | _, [] => True
  | g, x :: xs =>
      Recorded s c g x ∧ (uncounted s.info x = true → ∀ y ∈ xs, reads s.info y = false) ∧
        AllRecorded s c (g.change s.info x) xs

/-- A 324 reply for a channel. -/
structure ModesTold (s : NetworkState) (c : Ref) (l : IrcLine) : Prop where
  command : commandOf l = some .c324
  channel : ∃ name, l.args[2]? = some name ∧ findChannel s name = .ok (some c)
  /-- A mode string starts with a sign. -/
  signed : ∃ w, l.args[3]? = some (chr '+' :: w)
  own : ∃ xs, lineChanges s.info l 3 = some xs ∧ ∀ x ∈ xs, isOwnMode s.info x.mode = true

/-- A reply with parameters that are kept already. -/
structure ModesReply (s : NetworkState) (c : Ref) (l : IrcLine) : Prop extends ModesTold s c l where
  kept : ∀ ch, s.chanHeap c = some ch → ∀ m p, toldModes s.info l 3 .empty m = some (some p) →
    paramOf ch m = some p

/-- A MODE line for a channel that changes what the table of modes need not know of. -/
structure ModesLine (c : Ref) (x : NetworkState × ModeView) (l : IrcLine) : Prop where
  command : commandOf l = some .mode
  channel : ∃ name, l.args[1]? = some name ∧ isChannelname name x.1.info = .ok true ∧
    findChannel x.1 name = .ok (some c)
  recorded : ∃ xs, lineChanges x.1.info l 2 = some xs ∧ AllRecorded x.1 c x.2 xs

/-- The state and the modes after a MODE line. -/
def modeRunStep (x : NetworkState × ModeView) (i : Input) : Except Fault (NetworkState × ModeView) := do
  let s ← stateStep x.1 i
  pure (s, toldModes x.1.info i.2 2 x.2)

/-! ### The table of modes -/

section
variable {modes : Modes} {g : ModeView} {m m' : Byte} {i : Fin MAXMODES} {set : Bool}
  {info : NetworkInfo} {w : Str} {args : List Str} {xs : List ModeChange}

theorem modeSlot_val (h : modeSlot m = .ok i) : i.1 = m.1 := by
  unfold modeSlot at h
  split at h
  · cases h
    rfl
  · cases h

theorem modeSlot_inj (h : modeSlot m = .ok i) (h' : modeSlot m' = .ok i) : m = m' :=
  Subtype.ext ((modeSlot_val h).symm.trans (modeSlot_val h'))

theorem flagOf_set (h : modeSlot m = .ok i) :
    flagOf (ModeArray.set modes i set) m' = if m' = m then set else flagOf modes m' := by
  by_cases hm : m' = m
  · subst hm
    rw [if_pos rfl, flagOf, h]
    exact if_pos rfl
  · rw [if_neg hm, flagOf, flagOf]
    cases h' : modeSlot m' with
    | error e => rfl
    | ok j =>
        refine if_neg fun e => hm ?_
        subst e
        exact modeSlot_inj h' h

theorem ModeView.ShownBy.update (hg : g.ShownBy modes) (h : modeSlot m = .ok i) (v : Option (Option Str))
    (hv : v ≠ none ↔ set = true) :
    ModeView.ShownBy (Function.update g m v) (ModeArray.set modes i set) where
  nul := by
    have other : (⟨0, by decide⟩ : Fin MAXMODES) ≠ i := by
      rintro rfl
      exact absurd (modeSlot_val h) m.2.1.ne
    exact (if_neg other).trans hg.nul
  flag := by
    intro m'
    rw [flagOf_set h]
    by_cases hm : m' = m
    · subst hm
      rw [if_pos rfl, Function.update_self, hv]
    · rw [if_neg hm, Function.update_of_ne hm]
      exact hg.flag m'

theorem some_ite_ne_none (set : Bool) (a : Option Str) :
    (if set then some a else none) ≠ none ↔ set = true := by
  cases set <;> simp

theorem ModeView.change_own (h : isOwnMode info m = true) (set : Bool) (a : Option Str) :
    g.change info ⟨set, m, a⟩ = Function.update g m (if set then some a else none) :=
  if_pos h

theorem ModeView.change_other (h : isOwnMode info m = false) (set : Bool) (a : Option Str) :
    g.change info ⟨set, m, a⟩ = g :=
  if_neg (by simp [h])

theorem modeChanges_plus (hm : m = chr '+') :
    modeChanges info set (m :: w) args = modeChanges info true w args := by
  conv_lhs => unfold modeChanges
  exact if_pos hm

theorem modeChanges_minus (hp : m ≠ chr '+') (hm : m = chr '-') :
    modeChanges info set (m :: w) args = modeChanges info false w args := by
  conv_lhs => unfold modeChanges
  rw [if_neg hp, if_pos hm]

/-- A letter is the first change, with its argument. -/
theorem modeChanges_letter (hp : m ≠ chr '+') (hm : m ≠ chr '-')
    (hx : modeChanges info set (m :: w) args = some xs) :
    ∃ a args' xs', xs = ⟨set, m, a⟩ :: xs' ∧ modeChanges info set w args' = some xs' ∧
      needsArg info set m = some a.isSome ∧ args = a.toList ++ args' := by
  unfold modeChanges at hx
  rw [if_neg hp, if_neg hm] at hx
  cases ht : needsArg info set m with
  | none =>
      rw [ht] at hx
      cases hx
  | some b =>
      rw [ht] at hx
      cases b with
      | false =>
          obtain ⟨xs', hx', rfl⟩ := Option.map_eq_some_iff.mp hx
          exact ⟨none, args, xs', rfl, hx', rfl, rfl⟩
      | true =>
          cases args with
          | nil => cases hx
          | cons a args =>
              obtain ⟨xs', hx', rfl⟩ := Option.map_eq_some_iff.mp hx
              exact ⟨some a, args, xs', rfl, hx', rfl, rfl⟩

/-- A mode string without lists and status shows the modes that it sets. -/
theorem changeModes_shown (hx : modeChanges info set w args = some xs)
    (hown : ∀ x ∈ xs, isOwnMode info x.mode = true) (hg : g.ShownBy modes) :
    Ensures (changeModes set modes w) (fun modes' => ModeView.ShownBy (xs.foldl (.change info) g) modes')
      fun _ => True := by
  induction w generalizing set args xs g modes with
  | nil =>
      unfold modeChanges at hx
      cases hx
      exact hg
  | cons m w ih =>
      rw [changeModes]
      by_cases hp : m = chr '+'
      · rw [modeChanges_plus hp] at hx
        rw [if_pos hp]
        exact ih hx hown hg
      by_cases hm : m = chr '-'
      · rw [modeChanges_minus hp hm] at hx
        rw [if_neg hp, if_pos hm]
        exact ih hx hown hg
      rw [if_neg hp, if_neg hm]
      obtain ⟨a, args', xs', rfl, hx', -, -⟩ := modeChanges_letter hp hm hx
      have letter : Ensures (modesChangeMode modes set m)
          (fun modes' => ModeView.ShownBy (g.change info ⟨set, m, a⟩) modes') fun _ => True := by
        refine Ensures.bind (Q := fun i => modeSlot m = .ok i) (by cases modeSlot m <;> trivial) ?_
        intro i hi
        rw [ModeView.change_own (hown _ List.mem_cons_self)]
        exact hg.update hi _ (some_ite_ne_none set a)
      rw [List.foldl_cons]
      exact letter.bind fun modes' h' =>
        ih hx' (fun x hx => hown x (List.mem_cons_of_mem _ hx)) h'

end

/-! ### A letter of a MODE line -/

/-- The channel holds the modes. -/
def ModesHeld (c : Ref) (g : ModeView) (s : NetworkState) : Prop :=
  ∃ ch, s.chanHeap c = some ch ∧ g.HeldBy ch

section
variable {s s' : NetworkState} {c : Ref} {g : ModeView} {ch ch' : ChannelState} {m m' : Byte}
  {i : Fin MAXMODES} {set : Bool} {now : Long} {by' : Option Ref} {a o : Option Str} {l : IrcLine}

theorem paramOf_set (h : modeSlot m = .ok i) (v : Option Str) :
    paramOf { ch with chanmodeOption := ModeArray.set ch.chanmodeOption i v } m' =
      if m' = m then v else paramOf ch m' := by
  by_cases hm : m' = m
  · subst hm
    rw [if_pos rfl, paramOf, h]
    exact if_pos rfl
  · rw [if_neg hm, paramOf, paramOf]
    cases h' : modeSlot m' with
    | error e => rfl
    | ok j =>
        refine if_neg fun e => hm ?_
        subst e
        exact modeSlot_inj h' h

theorem ModeView.HeldBy.of_eq (h : g.HeldBy ch) (hm : ch'.modes = ch.modes)
    (ho : ch'.chanmodeOption = ch.chanmodeOption) : g.HeldBy ch' where
  shown := hm ▸ h.shown
  param := fun m p hp => by
    rw [paramOf, ho]
    exact h.param m p hp

/-- What a letter leaves at the channel. -/
def LetterLeaves (c : Ref) (g : ModeView) (s : NetworkState) (n : ℕ) (r : NetworkState × Option ℕ) :
    Prop :=
  r.2 = some n ∧ ModesOnly c s r.1 ∧ ModesHeld c g r.1

theorem changeNicklist_modes (hv : ModesHeld c g s) (mask : Str) :
    Ensures (changeNicklist now by' c set m (some mask) s) (LetterLeaves c g s 1) fun _ => True := by
  obtain ⟨ch, hch, hheld⟩ := hv
  refine Ensures.bind (Q := fun _ => True) (by cases modeSlot m <;> trivial) fun i _ => ?_
  rw [NetworkState.chan_eq hch, ok_bind]
  split
  · refine Ensures.bind (Q := fun _ => True)
      (by cases changeMasks now by' set mask s (ch.chanmodeNicklist i) <;> trivial) fun new _ => ?_
    exact ⟨rfl, modesOnly_setChan hch rfl rfl, _, Heap.set_same _ _ _, hheld.of_eq rfl rfl⟩
  · exact ⟨rfl, .refl c s, ch, hch, hheld⟩

/-- The parameter of a mode that is set. -/
theorem setOption_modes (hv : ModesHeld c g s) (hset : (g m).isSome = true) (p : Str) :
    Ensures (setOption c m (some p) s) (fun s' => ModesOnly c s s' ∧
      ModesHeld c (Function.update g m (some (some p))) s') fun _ => True := by
  obtain ⟨ch, hch, hheld⟩ := hv
  refine Ensures.bind (Q := fun i => modeSlot m = .ok i) (by cases modeSlot m <;> trivial) fun i hi => ?_
  refine (NetworkState.modifyChan_ensures open_faults c _).imp ?_
  rintro _ ⟨ch', hch', rfl⟩
  cases hch.symm.trans hch'
  refine ⟨modesOnly_setChan hch rfl rfl, _, Heap.set_same _ _ _, ⟨hheld.shown.nul, fun m' => ?_⟩, ?_⟩
  · by_cases hm : m' = m
    · subst hm
      rw [Function.update_self]
      exact iff_of_true ((hheld.shown.flag m').mpr (Option.isSome_iff_ne_none.mp hset)) nofun
    · rw [Function.update_of_ne hm]
      exact hheld.shown.flag m'
  · intro m' q hq
    rw [paramOf_set hi]
    by_cases hm : m' = m
    · subst hm
      rw [Function.update_self] at hq
      rw [if_pos rfl, ← Option.some.inj hq]
    · rw [Function.update_of_ne hm] at hq
      rw [if_neg hm]
      exact hheld.param m' q hq

/-- The parameter of a mode that is not set. -/
theorem unsetOption_modes (hv : ModesHeld c g s) (hset : g m = none) :
    Ensures (setOption c m none s) (fun s' => ModesOnly c s s' ∧ ModesHeld c g s') fun _ => True := by
  obtain ⟨ch, hch, hheld⟩ := hv
  refine Ensures.bind (Q := fun i => modeSlot m = .ok i) (by cases modeSlot m <;> trivial) fun i hi => ?_
  refine (NetworkState.modifyChan_ensures open_faults c _).imp ?_
  rintro _ ⟨ch', hch', rfl⟩
  cases hch.symm.trans hch'
  refine ⟨modesOnly_setChan hch rfl rfl, _, Heap.set_same _ _ _, hheld.shown, fun m' q hq => ?_⟩
  rw [paramOf_set hi]
  by_cases hm : m' = m
  · subst hm
    rw [hset] at hq
    cases hq
  · rw [if_neg hm]
    exact hheld.param m' q hq

theorem changePrefixMode_modes (hv : ModesHeld c g s) (nick : Str)
    (hnick : findChannelNick s c nick ≠ .ok none) :
    Ensures (changePrefixMode c set m (some nick) s) (LetterLeaves c g s 1) fun _ => True := by
  refine Ensures.bind (Q := fun r => findChannelNick s c nick = .ok r)
    (by cases findChannelNick s c nick <;> trivial) fun r hr => ?_
  cases r with
  | none => exact absurd hr hnick
  | some n =>
      refine (NetworkState.memb_ensures open_faults n).bind fun cn hcn => ?_
      refine Ensures.bind (Q := fun _ => True)
        (by cases modesChangeMode cn.modes set m <;> trivial) fun modes _ => ?_
      exact ⟨rfl, modesOnly_setMemb hcn rfl, hv⟩

theorem changeBool_modes (hv : ModesHeld c g s) :
    Ensures (changeBool c set m s)
      (LetterLeaves c (Function.update g m (if set then some none else none)) s 0) fun _ => True := by
  obtain ⟨ch, hch, hheld⟩ := hv
  unfold changeBool modesChangeMode
  rw [NetworkState.chan_eq hch, ok_bind]
  cases hi : modeSlot m with
  | error e => trivial
  | ok i =>
      refine ⟨rfl, modesOnly_setChan hch rfl rfl, _, Heap.set_same _ _ _,
        hheld.shown.update hi _ (some_ite_ne_none set none), fun m' q hq => ?_⟩
      by_cases hm : m' = m
      · subst hm
        rw [Function.update_self] at hq
        cases set <;> cases hq
      · rw [Function.update_of_ne hm] at hq
        exact hheld.param m' q hq

/-- A parameter is set for a mode that is set, or removed from one that is not. -/
theorem changeSetting_modes (hv : ModesHeld c g s) (hown : isOwnMode s.info m = true)
    (hrec : (g m).isSome = set) (ha : set = true → a.isSome = true ∧ o = a) :
    Ensures (changeSetting c set m o s)
      (LetterLeaves c (g.change s.info ⟨set, m, a⟩) s (if set then 1 else 0)) fun _ => True := by
  rw [ModeView.change_own hown]
  cases set with
  | true =>
      obtain ⟨hsome, rfl⟩ := ha rfl
      obtain ⟨p, rfl⟩ := Option.isSome_iff_exists.mp hsome
      exact (setOption_modes hv hrec p).bind fun s' hs' => ⟨rfl, hs'⟩
  | false =>
      have unset : g m = none := by simpa using hrec
      have same : Function.update g m (if false = true then some a else none) = g := by
        rw [if_neg Bool.false_ne_true, ← unset, Function.update_eq_self]
      rw [same]
      exact (unsetOption_modes hv unset).bind fun s' hs' => ⟨rfl, hs'⟩

/-- A letter whose argument, if the code looks at it, is its own. -/
theorem channelStateChangeMode_modes (hv : ModesHeld c g s)
    (htakes : needsArg s.info set m = some a.isSome) (hrec : Recorded s c g ⟨set, m, a⟩)
    (ho : reads s.info ⟨set, m, a⟩ = true → o = a) :
    Ensures (channelStateChangeMode now by' c set m o s)
      (LetterLeaves c (g.change s.info ⟨set, m, a⟩) s (if reads s.info ⟨set, m, a⟩ then 1 else 0))
      fun _ => True := by
  refine Ensures.bind (Q := fun t => networkChanmodeType m s.info = .ok t)
    (by cases networkChanmodeType m s.info <;> trivial) fun t ht => ?_
  simp only [Recorded, ht] at hrec
  simp only [needsArg, ht] at htakes
  -- the status of a member is no mode of the channel
  have status (hother : isOwnMode s.info m = false) (hp : isPrefixMode s.info m = true)
      (hset : t ≠ .setting) (hsome : some true = some a.isSome)
      (hon : isPrefixMode s.info m = true → ∀ x ∈ a, findChannelNick s c x ≠ .ok none) :
      Ensures (changePrefixMode c set m o s) (LetterLeaves c (g.change s.info ⟨set, m, a⟩) s
        (if reads s.info ⟨set, m, a⟩ then 1 else 0)) fun _ => True := by
    obtain ⟨nick, rfl⟩ := Option.isSome_iff_exists.mp (Option.some.inj hsome).symm
    have hreads : reads s.info ⟨set, m, some nick⟩ = true := by simp [reads, uncounted, ht, hset]
    rw [ho hreads, if_pos hreads, ModeView.change_other hother]
    exact changePrefixMode_modes hv nick (hon hp nick rfl)
  cases t with
  | nicklist =>
      obtain ⟨mask, rfl⟩ := Option.isSome_iff_exists.mp (Option.some.inj htakes).symm
      have hreads : reads s.info ⟨set, m, some mask⟩ = true := by simp [reads, uncounted, ht]
      rw [if_pos rfl, ho hreads, if_pos hreads, ModeView.change_other (by simp [isOwnMode, ht])]
      exact changeNicklist_modes hv mask
  | setting =>
      have hreads : reads s.info ⟨set, m, a⟩ = set := by
        rw [reads, ← Option.some.inj htakes]
        cases set <;> simp [uncounted, ht]
      rw [if_neg (by decide), if_pos (by decide), hreads]
      refine changeSetting_modes hv (by simp [isOwnMode, ht]) hrec fun h => ?_
      exact ⟨(Option.some.inj htakes).symm, ho (hreads.trans h)⟩
  | optSetting =>
      have hreads : reads s.info ⟨set, m, a⟩ = set := by
        rw [reads, ← Option.some.inj htakes]
        simp [uncounted, ht]
      rw [if_neg (by decide), if_pos (by decide), hreads]
      refine changeSetting_modes hv (by simp [isOwnMode, ht]) hrec fun h => ?_
      exact ⟨(Option.some.inj htakes).symm.trans h, ho (hreads.trans h)⟩
  | bool =>
      rw [if_neg (by decide), if_neg (by decide)]
      split
      · next hp => exact status (by simp [isOwnMode, ht, hp]) hp nofun (hp ▸ htakes) hrec
      · next hp =>
        have hnone : a = none := by
          rw [Bool.eq_false_of_not_eq_true hp] at htakes
          simpa using (Option.some.inj htakes).symm
        subst hnone
        rw [if_pos rfl, ModeView.change_own (by simp [isOwnMode, ht, hp])]
        exact changeBool_modes hv
  | unknown =>
      rw [if_neg (by decide), if_neg (by decide)]
      split
      · next hp => exact status (by simp [isOwnMode, ht]) hp nofun (by simpa [hp] using htakes) hrec
      · next hp =>
        rw [if_neg hp] at htakes
        cases htakes

/-! ### The loop over the letters -/

theorem Recorded.only {s₀ : NetworkState} {x : ModeChange} (h : Recorded s₀ c g x)
    (honly : ModesOnly c s₀ s) : Recorded s c g x := by
  unfold Recorded at h ⊢
  simpa only [honly.info, honly.members] using h

/-- Where the letters behind one find their arguments: at the next one, or nowhere, if that letter
left its own. -/
theorem behind_letter {info : NetworkInfo} {arg : ℕ} {args : List Str} {xs : List ModeChange}
    (ho : l.args[arg]? = o)
    (hargs : l.args.drop arg = a.toList ++ args ∨ ∀ x ∈ ⟨set, m, a⟩ :: xs, reads info x = false)
    (hkey : uncounted info ⟨set, m, a⟩ = true → ∀ y ∈ xs, reads info y = false) :
    (reads info ⟨set, m, a⟩ = true → o = a) ∧
    (l.args.drop (if o.isSome then arg + (if reads info ⟨set, m, a⟩ then 1 else 0) else arg) = args ∨
      ∀ y ∈ xs, reads info y = false) := by
  rcases hargs with hargs | hargs
  · cases a with
    | none =>
        have hreads : reads info ⟨set, m, none⟩ = false := rfl
        refine ⟨fun h => ?_, .inl ?_⟩
        · rw [hreads] at h
          cases h
        · rw [hreads, if_neg Bool.false_ne_true, Nat.add_zero, ite_self]
          exact hargs
    | some v =>
        have hv : l.args[arg]? = some v := by
          rw [← List.head?_drop, hargs]
          rfl
        obtain rfl := ho.symm.trans hv
        refine ⟨fun _ => rfl, ?_⟩
        cases hun : uncounted info ⟨set, m, some v⟩ with
        | true => exact .inr (hkey hun)
        | false =>
            have hreads : reads info ⟨set, m, some v⟩ = true := by simp [reads, hun]
            rw [hreads, if_pos rfl, Option.isSome_some, if_pos rfl]
            refine .inl ?_
            rw [← List.drop_drop, hargs]
            rfl
  · refine ⟨fun h => ?_, .inr fun y hy => hargs y (List.mem_cons_of_mem _ hy)⟩
    rw [hargs _ List.mem_cons_self] at h
    cases h

/-- The change that a MODE line makes is the one it tells. -/
theorem channelModeLoop_modes {s₀ : NetworkState} {w : Str} {arg : ℕ} {args : List Str}
    {xs : List ModeChange} (honly : ModesOnly c s₀ s) (hv : ModesHeld c g s)
    (hx : modeChanges s₀.info set w args = some xs) (hrec : AllRecorded s₀ c g xs)
    (hargs : l.args.drop arg = args ∨ ∀ x ∈ xs, reads s₀.info x = false) :
    Ensures (channelModeLoop now l by' c w set arg s)
      (fun s' => ModesOnly c s₀ s' ∧ ModesHeld c (xs.foldl (.change s₀.info) g) s') fun _ => True := by
  induction w generalizing set args xs g arg s with
  | nil =>
      unfold modeChanges at hx
      cases hx
      exact ⟨honly, hv⟩
  | cons m w ih =>
      by_cases hp : m = chr '+'
      · rw [modeChanges_plus hp] at hx
        rw [channelModeLoop_plus hp]
        exact ih honly hv hx hrec hargs
      by_cases hm : m = chr '-'
      · rw [modeChanges_minus hp hm] at hx
        rw [channelModeLoop_minus hp hm]
        exact ih honly hv hx hrec hargs
      obtain ⟨a, args', xs', rfl, hx', htakes, rfl⟩ := modeChanges_letter hp hm hx
      obtain ⟨hrec₁, hkey, hrec'⟩ := hrec
      refine channelModeLoop_letter hp hm fun o ho => ?_
      obtain ⟨hown, hrest⟩ := behind_letter ho hargs hkey
      rw [← honly.info] at htakes hown
      refine (channelStateChangeMode_modes hv htakes (hrec₁.only honly) hown).imp ?_
      rintro ⟨s', ret⟩ ⟨rfl, honly', hheld⟩
      rw [honly.info] at hheld ⊢
      exact ih (g := g.change s₀.info ⟨set, m, a⟩) (honly.trans honly') hheld hx' hrec' hrest

/-! ### Lines -/

/-- A reply tells all modes that are set. -/
theorem handle324_modes (h : ModesReply s c l) :
    Ensures (handle324 s l) (ModesHeld c (toldModes s.info l 3 .empty)) fun _ => True := by
  obtain ⟨name, hname, hfound⟩ := h.channel
  obtain ⟨w, hw⟩ := h.signed
  obtain ⟨xs, hxs, hown⟩ := h.own
  have told : toldModes s.info l 3 .empty = xs.foldl (.change s.info) .empty := by
    rw [toldModes, hxs, Option.getD_some]
  have hkept := h.kept
  rw [told] at hkept ⊢
  refine (IrcLine.argStr_ensures open_faults 2).bind fun name' hname' => ?_
  cases hname.symm.trans hname'
  rw [hfound, ok_bind]
  refine (IrcLine.argStr_ensures open_faults 3).bind fun w' hw' => ?_
  cases hw.symm.trans hw'
  have shown : Ensures (changeModes true modesClear (chr '+' :: w))
      (fun modes => ModeView.ShownBy (xs.foldl (.change s.info) .empty) modes) fun _ => True := by
    rw [lineChanges, hw, Option.getD_some] at hxs
    refine changeModes_shown hxs hown ⟨rfl, fun m => iff_of_false ?_ (not_not.mpr rfl)⟩
    unfold flagOf
    cases modeSlot m <;> exact Bool.false_ne_true
  have table : Ensures (string2mode (some (chr '+' :: w)))
      (fun r => ModeView.ShownBy (xs.foldl (.change s.info) .empty) r.1) fun _ => True := by
    rw [string2mode, if_neg (by decide)]
    exact shown.bind fun modes hmodes => hmodes
  refine table.bind fun r hr => ?_
  refine (NetworkState.modifyChan_ensures open_faults c _).imp ?_
  rintro _ ⟨ch, hch, rfl⟩
  exact ⟨_, Heap.set_same _ _ _, hr, hkept ch hch⟩

/-- A MODE line tells what changes. -/
theorem handleMode_modes (hv : ModesHeld c g s) (h : ModesLine c (s, g) l) :
    Ensures (handleMode now s l) (ModesHeld c (toldModes s.info l 2 g)) fun _ => True := by
  obtain ⟨name, hname, hchan, hfound⟩ := h.channel
  obtain ⟨xs, hxs, hrec⟩ := h.recorded
  dsimp only at hchan hfound hxs hrec
  have told : toldModes s.info l 2 g = xs.foldl (.change s.info) g := by
    rw [toldModes, hxs, Option.getD_some]
  rw [told]
  refine (IrcLine.argStr_ensures open_faults 1).bind fun name' hname' => ?_
  cases hname.symm.trans hname'
  refine (IrcLine.argStr_ensures open_faults 2).bind fun change hchange => ?_
  rw [hchan, ok_bind, if_pos rfl, hfound, ok_bind]
  refine (lineGetNick_ensures open_faults).bind fun byName _ => ?_
  refine (findNetworkNick_ensures open_faults byName).bind fun by' _ => ?_
  rw [lineChanges, hchange, Option.getD_some] at hxs
  exact (channelModeLoop_modes (.refl c s) hv hxs hrec (.inl rfl)).imp fun s' hs' => hs'.2

/-- After a reply and MODE lines that change what the table of modes need not know of, the channel
holds the modes the server told. -/
theorem modeRun_held {s₀ : NetworkState} {i : Input} {x : NetworkState × ModeView}
    (hreply : ModesReply s₀ c i.2) (hs : stateStep s₀ i = .ok s)
    (h : Reach modeRunStep (fun x j => ModesLine c x j.2) (s, toldModes s₀.info i.2 3 .empty) x) :
    ModesHeld c x.2 x.1 := by
  refine h.invariant (I := fun x => ModesHeld c x.2 x.1) ?_ ?_
  · rw [stateStep_handler hreply.command] at hs
    exact (handle324_modes hreply).of_ok hs
  · rintro ⟨s, g⟩ j hv hl
    refine Ensures.bind (Q := ModesHeld c (toldModes s.info j.2 2 g)) ?_ fun s' hs' => hs'
    rw [stateStep_handler hl.command]
    exact handleMode_modes hv hl

end

end Ctrlproxy
