import Ctrlproxy.State.Lookup
import Ctrlproxy.State.Modes

/-!
# State — letters of a mode change and their parameters

`handle_mode` walks over the letters of a change with the index of the next parameter.  Each letter
says how many parameters it has used, and the index is moved by that.  A removed setting of class B
has a parameter and uses none, so the letters behind it are handed parameters that are not theirs
(`handleMode_aligned_iff`).

`applyChange` is what one change does to a channel; the change of a line is the fold of it.
-/

namespace Ctrlproxy
open Outcome

/-! ### One change -/

/-- What a mode letter changes. -/
inductive ModeKind where
  | list
  | setting
  | status
  | flag
  deriving DecidableEq

/-- What a letter changes, if it was announced. -/
def modeKind (info : NetworkInfo) (m : Byte) : Option ModeKind :=
  match networkChanmodeType m info with
  | .ok .nicklist => some .list
  | .ok .setting | .ok .optSetting => some .setting
  | .ok .bool => if isPrefixMode info m then some .status else some .flag
  | .ok .unknown => if isPrefixMode info m then some .status else none
  | .error _ => none

/-- A list of masks after a change: a mask is added at the end, or its first entry is removed. -/
def masksAfter (now : Long) (byNick : Option Str) (x : ModeChange) (l : List NicklistEntry) :
    List NicklistEntry :=
  if x.set then l ++ [{ hostmask := x.arg, by' := byNick, timeSet := now }]
  else l.eraseP fun e => e.hostmask = x.arg

/-- A channel after a change of its own. -/
def ChannelState.applyChange (now : Long) (byNick : Option Str) (i : Fin MAXMODES) (x : ModeChange)
    (ch : ChannelState) : ModeKind → ChannelState
  | .list =>
      let new := masksAfter now byNick x (ch.chanmodeNicklist i)
      if ch.chanmodeNicklistPresent i then
        { ch with chanmodeNicklist := ModeArray.set ch.chanmodeNicklist i new }
      else ch
  | .setting =>
      let new := if x.set then x.arg else none
      { ch with chanmodeOption := ModeArray.set ch.chanmodeOption i new }
  | .flag => { ch with modes := ModeArray.set ch.modes i x.set }
  | .status => ch

/-- A state after a change of the status of a member. -/
def applyStatus (c : Ref) (i : Fin MAXMODES) (x : ModeChange) (s : NetworkState) : NetworkState :=
  match findChannelNick s c (x.arg.getD []) with
  | .ok (some k) => match s.membHeap k with
      | some cn => s.setMemb k { cn with modes := ModeArray.set cn.modes i x.set }
      | none => s
  | _ => s

/-- A state after one change of the modes of the channel at `c`. -/
def applyChange (now : Long) (byNick : Option Str) (c : Ref) (s : NetworkState) (x : ModeChange) :
    NetworkState :=
  match modeSlot x.mode, modeKind s.info x.mode, s.chanHeap c with
  | .ok i, some .status, _ => applyStatus c i x s
  | .ok i, some k, some ch => s.setChan c (ch.applyChange now byNick i x k)
  | _, _, _ => s

/-! ### Letters and parameters -/

/-- A call of `channel_state_change_mode`: the sign, the letter and the index of the parameter it is
handed. -/
structure ModeCall where
  set : Bool
  mode : Byte
  arg : ℕ
  deriving DecidableEq

/-- The loop of `handle_mode`, with the calls it makes. -/
def channelModeCalls (now : Long) (l : IrcLine) (by' : Option Ref) (c : Ref) :
    Str → (t : Bool) → (arg : ℕ) → NetworkState → Except Fault (NetworkState × List ModeCall)
  | [], _, _, s => .ok (s, [])
  | b :: w, t, arg, s =>
      if b = chr '+' then channelModeCalls now l by' c w true arg s
      else if b = chr '-' then channelModeCalls now l by' c w false arg s
      else do
        let opt ← l.arg arg
        let (s, ret) ← channelStateChangeMode now by' c t b opt s
        match ret with
        | none => pure (s, [⟨t, b, arg⟩])
        | some n => do
            let (s, calls) ← channelModeCalls now l by' c w t (if opt.isSome then arg + n else arg) s
            pure (s, ⟨t, b, arg⟩ :: calls)

/-- The letters of a change with the indices of their own parameters, the next one being at `k`. -/
def ownParameters (info : NetworkInfo) : (set : Bool) → Str → (k : ℕ) → List (Bool × Byte × Option ℕ)
  | _, [], _ => []
  | set, m :: w, k =>
      if m = chr '+' then ownParameters info true w k
      else if m = chr '-' then ownParameters info false w k
      else if needsArg info set m = some true then
        (set, m, some k) :: ownParameters info set w (k + 1)
      else (set, m, none) :: ownParameters info set w k

/-- The letter of a call, with the parameter it is handed if it has one. -/
def ModeCall.parameter (info : NetworkInfo) (k : ModeCall) : Bool × Byte × Option ℕ :=
  (k.set, k.mode, if needsArg info k.set k.mode = some true then some k.arg else none)

section
variable {now : Long} {l : IrcLine} {by' : Option Ref} {c : Ref} {w : Str} {t : Bool} {arg : ℕ}
  {s : NetworkState}

/-- The calls are those of the loop. -/
theorem channelModeLoop_eq_calls : channelModeLoop now l by' c w t arg s =
    (channelModeCalls now l by' c w t arg s).map Prod.fst := by
  induction w generalizing t arg s with
  | nil => rfl
  | cons b w ih =>
      rw [channelModeLoop, channelModeCalls]
      split
      · exact ih
      split
      · exact ih
      cases l.arg arg with
      | error e => rfl
      | ok opt =>
          rw [ok_bind, ok_bind]
          cases channelStateChangeMode now by' c t b opt s with
          | error e => rfl
          | ok r =>
              obtain ⟨s', ret⟩ := r
              cases ret with
              | none => rfl
              | some n =>
                  simp only [ok_bind, ih]
                  cases channelModeCalls now l by' c w t (if opt.isSome then arg + n else arg) s' <;> rfl

end

/-! ### A letter with its own parameter -/

/-- The change can be made: the letter has a place in the tables, and where a mask is taken out of a
fetched list no entry in front of it lacks a mask. -/
def ChangeFits (c : Ref) (s : NetworkState) (x : ModeChange) : Prop :=
  ∃ i, modeSlot x.mode = .ok i ∧ (modeKind s.info x.mode = some .list → x.set = false →
    ∀ ch, s.chanHeap c = some ch → ch.chanmodeNicklistPresent i = true →
      ∀ e ∈ (ch.chanmodeNicklist i).takeWhile fun e => e.hostmask ≠ x.arg, e.hostmask ≠ none)

/-- What the calls need of a state: the setter of a mask is known, and the channel is there. -/
structure ModeReady (by' : Option Ref) (byNick : Option Str) (c : Ref) (s : NetworkState) : Prop where
  setter : setterNick s by' = .ok byNick
  live : ∃ ch, s.chanHeap c = some ch

/-- The nick that a change of a status names is on the channel. -/
def StatusNamed (c : Ref) (s : NetworkState) (x : ModeChange) : Prop :=
  modeKind s.info x.mode = some .status → ∀ a ∈ x.arg, ∃ k, findChannelNick s c a = .ok (some k)

section
variable {now : Long} {by' : Option Ref} {byNick : Option Str} {c k : Ref} {s : NetworkState}
  {x : ModeChange} {mask a : Str} {l : List NicklistEntry} {i : Fin MAXMODES} {ch : ChannelState}
  {o : Option Str} {m : Byte}

theorem nicklistRemoveEntry_eq (h : ∀ e ∈ l.takeWhile fun e => e.hostmask ≠ some mask,
    e.hostmask ≠ none) :
    nicklistRemoveEntry l mask = .ok (l.eraseP fun e => e.hostmask = some mask) := by
  induction l with
  | nil => rfl
  | cons e l ih =>
      rw [nicklistRemoveEntry]
      by_cases he : e.hostmask = some mask
      · rw [he, List.eraseP_cons_of_pos (by simp [he])]
        exact if_pos rfl
      · rw [List.takeWhile_cons_of_pos (by simp [he])] at h
        rw [List.eraseP_cons_of_neg (by simp [he])]
        cases hm : e.hostmask with
        | none => exact absurd hm (h e List.mem_cons_self)
        | some v =>
            have hv : v ≠ mask := fun e' => he (e' ▸ hm)
            dsimp only
            rw [if_neg hv, ih fun e he => h e (List.mem_cons_of_mem _ he)]
            rfl

theorem nicklistRemoveEntry_error (h : ¬ ∀ e ∈ l.takeWhile fun e => e.hostmask ≠ some mask,
    e.hostmask ≠ none) : nicklistRemoveEntry l mask = .error .null := by
  induction l with
  | nil => exact absurd (fun e he => absurd he List.not_mem_nil) h
  | cons e l ih =>
      rw [nicklistRemoveEntry]
      by_cases he : e.hostmask = some mask
      · rw [List.takeWhile_cons_of_neg (by simp [he])] at h
        exact absurd (fun e he => absurd he List.not_mem_nil) h
      · rw [List.takeWhile_cons_of_pos (by simp [he])] at h
        cases hm : e.hostmask with
        | none => rfl
        | some v =>
            have hv : v ≠ mask := fun e' => he (e' ▸ hm)
            have hl : ¬ ∀ e ∈ l.takeWhile fun e => e.hostmask ≠ some mask, e.hostmask ≠ none := by
              refine fun hall => h (List.forall_mem_cons.mpr ⟨?_, hall⟩)
              rw [hm]
              nofun
            dsimp only
            rw [if_neg hv, ih hl]
            rfl

/-- A mask list changes as `masksAfter` says, or a comparison with a missing mask faults. -/
theorem changeMasks_eq (hready : ModeReady by' byNick c s) (harg : x.arg = some mask)
    (h : x.set = false → ∀ e ∈ l.takeWhile fun e => e.hostmask ≠ some mask, e.hostmask ≠ none) :
    changeMasks now by' x.set mask s l = .ok (masksAfter now byNick x l) := by
  rw [changeMasks, masksAfter, harg]
  cases hset : x.set with
  | true =>
      rw [if_pos rfl, if_pos rfl, hready.setter]
      rfl
  | false =>
      rw [if_neg Bool.false_ne_true, if_neg Bool.false_ne_true]
      exact nicklistRemoveEntry_eq (h hset)

theorem modeKind_list (h : modeKind s.info m = some .list) :
    networkChanmodeType m s.info = .ok .nicklist := by
  unfold modeKind at h
  split at h
  · assumption
  all_goals first | cases h | (split at h <;> cases h)

theorem modeKind_setting (h : modeKind s.info m = some .setting) :
    networkChanmodeType m s.info = .ok .setting ∨ networkChanmodeType m s.info = .ok .optSetting := by
  unfold modeKind at h
  split at h
  · cases h
  · exact .inl ‹_›
  · exact .inr ‹_›
  all_goals first | cases h | (split at h <;> cases h)

theorem modeKind_status (h : modeKind s.info m = some .status) : isPrefixMode s.info m = true ∧
    (networkChanmodeType m s.info = .ok .bool ∨ networkChanmodeType m s.info = .ok .unknown) := by
  unfold modeKind at h
  split at h
  · cases h
  · cases h
  · cases h
  · split at h
    · exact ⟨‹_›, .inl ‹_›⟩
    · cases h
  · split at h
    · exact ⟨‹_›, .inr ‹_›⟩
    · cases h
  · cases h

theorem modeKind_flag (h : modeKind s.info m = some .flag) :
    isPrefixMode s.info m = false ∧ networkChanmodeType m s.info = .ok .bool := by
  unfold modeKind at h
  split at h
  · cases h
  · cases h
  · cases h
  · split at h
    · cases h
    · exact ⟨Bool.eq_false_of_not_eq_true ‹¬ isPrefixMode s.info m = true›, ‹_›⟩
  · split at h <;> cases h
  · cases h

/-- A letter that was announced changes something. -/
theorem modeKind_isSome {info : NetworkInfo} {set b : Bool} (h : needsArg info set m = some b) :
    ∃ k, modeKind info m = some k := by
  unfold needsArg at h
  unfold modeKind
  split at h <;> simp_all
  split <;> simp

/-- The branch that a letter takes. -/
theorem channelStateChangeMode_eq {set : Bool} {kind : ModeKind} (h : modeKind s.info m = some kind) :
    channelStateChangeMode now by' c set m o s = match kind with
      | .list => changeNicklist now by' c set m o s
      | .setting => changeSetting c set m o s
      | .status => changePrefixMode c set m o s
      | .flag => changeBool c set m s := by
  unfold channelStateChangeMode
  cases kind with
  | list =>
      rw [modeKind_list h, ok_bind]
      exact if_pos rfl
  | setting =>
      rcases modeKind_setting h with ht | ht <;>
        rw [ht, ok_bind, if_neg (by decide), if_pos (by decide)]
  | status =>
      obtain ⟨hp, ht⟩ := modeKind_status h
      rcases ht with ht | ht <;>
        rw [ht, ok_bind, if_neg (by decide), if_neg (by decide), if_pos hp]
  | flag =>
      obtain ⟨hp, ht⟩ := modeKind_flag h
      rw [ht, ok_bind, if_neg (by decide), if_neg (by decide), hp, if_neg Bool.false_ne_true]
      exact if_pos rfl

/-- The letters that need an argument, by what they change. -/
theorem reads_eq {kind : ModeKind} (h : modeKind s.info x.mode = some kind)
    (htakes : needsArg s.info x.set x.mode = some x.arg.isSome) :
    reads s.info x = match kind with
      | .list | .status => true
      | .setting => x.set
      | .flag => false := by
  cases kind with
  | list =>
      have ht := modeKind_list h
      simp only [needsArg, ht, Option.some.injEq] at htakes
      simp [reads, ← htakes, uncounted, ht]
  | setting =>
      rcases modeKind_setting h with ht | ht <;>
        simp only [needsArg, ht, Option.some.injEq] at htakes <;>
        cases hset : x.set <;> simp [reads, ← htakes, uncounted, ht, hset]
  | status =>
      obtain ⟨hp, ht⟩ := modeKind_status h
      rcases ht with ht | ht <;>
        simp only [needsArg, ht, hp, if_pos, Option.some.injEq] at htakes <;>
        simp [reads, ← htakes, uncounted, ht]
  | flag =>
      obtain ⟨hp, ht⟩ := modeKind_flag h
      simp only [needsArg, ht, hp, Option.some.injEq] at htakes
      simp [reads, ← htakes]

theorem reads_arg (h : reads s.info x = true) : ∃ a, x.arg = some a := by
  rw [reads, Bool.and_eq_true] at h
  exact Option.isSome_iff_exists.mp h.1

theorem findChannelNick_live (h : findChannelNick s c a = .ok (some k)) :
    ∃ cn, s.membHeap k = some cn := by
  obtain ⟨ch, -, h⟩ := bind_eq_ok h
  obtain ⟨cn, hcn, -⟩ := bind_eq_ok (findFirst_some h).2
  exact ⟨cn, NetworkState.memb_inv hcn⟩

theorem applyChange_eq {kind : ModeKind} (hi : modeSlot x.mode = .ok i)
    (hk : modeKind s.info x.mode = some kind) (hch : s.chanHeap c = some ch)
    (hne : kind ≠ .status) :
    applyChange now byNick c s x = s.setChan c (ch.applyChange now byNick i x kind) := by
  rw [applyChange, hi, hk, hch]
  cases kind with
  | status => exact absurd rfl hne
  | _ => rfl

theorem changeNicklist_fits (hready : ModeReady by' byNick c s) (hi : modeSlot x.mode = .ok i)
    (hch : s.chanHeap c = some ch) (harg : x.arg = some mask)
    (hfits : x.set = false → ch.chanmodeNicklistPresent i = true →
      ∀ e ∈ (ch.chanmodeNicklist i).takeWhile fun e => e.hostmask ≠ some mask, e.hostmask ≠ none) :
    changeNicklist now by' c x.set x.mode (some mask) s =
      .ok (s.setChan c (ch.applyChange now byNick i x .list), some 1) := by
  unfold changeNicklist ChannelState.applyChange
  dsimp only
  rw [hi, ok_bind, NetworkState.chan_eq hch, ok_bind]
  split
  · next hpresent =>
    rw [changeMasks_eq hready harg fun hset => hfits hset hpresent]
    rfl
  · rw [setChan_self hch]
    rfl

theorem changeSetting_fits (hi : modeSlot x.mode = .ok i) (hch : s.chanHeap c = some ch)
    (ho : x.set = true → o = x.arg ∧ o ≠ none) : changeSetting c x.set x.mode o s =
      .ok (s.setChan c (ch.applyChange now byNick i x .setting), some (if x.set then 1 else 0)) := by
  unfold changeSetting ChannelState.applyChange setOption
  cases hset : x.set with
  | false =>
      rw [if_neg Bool.false_ne_true, hi, ok_bind, NetworkState.modifyChan, NetworkState.chan_eq hch]
      rfl
  | true =>
      obtain ⟨rfl, hsome⟩ := ho hset
      obtain ⟨v, hv⟩ := Option.ne_none_iff_exists'.mp hsome
      rw [hv, hi]
      simp only [if_pos, ok_bind, NetworkState.modifyChan, NetworkState.chan_eq hch]
      rfl

theorem changePrefixMode_fits (hi : modeSlot x.mode = .ok i) (harg : x.arg = some a)
    (hnick : findChannelNick s c a = .ok (some k)) :
    changePrefixMode c x.set x.mode (some a) s = .ok (applyStatus c i x s, some 1) := by
  obtain ⟨cn, hcn⟩ := findChannelNick_live hnick
  unfold changePrefixMode applyStatus modesChangeMode
  dsimp only
  rw [harg, Option.getD_some, hnick, ok_bind]
  simp only [NetworkState.memb_eq hcn, hi, hcn, ok_bind]
  rfl

theorem changeBool_fits (hi : modeSlot x.mode = .ok i) (hch : s.chanHeap c = some ch) :
    changeBool c x.set x.mode s =
      .ok (s.setChan c (ch.applyChange now byNick i x .flag), some 0) := by
  unfold changeBool modesChangeMode
  rw [NetworkState.chan_eq hch, ok_bind, hi]
  rfl

/-- A letter with its own argument makes its change and says how many arguments it has used. -/
theorem channelStateChangeMode_fits (hready : ModeReady by' byNick c s)
    (htakes : needsArg s.info x.set x.mode = some x.arg.isSome) (hnamed : StatusNamed c s x)
    (ho : reads s.info x = true → o = x.arg) (hfits : ChangeFits c s x) :
    channelStateChangeMode now by' c x.set x.mode o s =
      .ok (applyChange now byNick c s x, some (if reads s.info x then 1 else 0)) := by
  obtain ⟨kind, hk⟩ := modeKind_isSome htakes
  obtain ⟨i, hi, hmasks⟩ := hfits
  obtain ⟨ch, hch⟩ := hready.live
  have hreads := reads_eq hk htakes
  rw [channelStateChangeMode_eq hk]
  cases kind with
  | list =>
      obtain ⟨mask, harg⟩ := reads_arg hreads
      rw [applyChange_eq hi hk hch nofun, hreads, if_pos rfl, ho hreads, harg]
      refine changeNicklist_fits hready hi hch harg fun hset hpresent => ?_
      rw [← harg]
      exact hmasks hk hset ch hch hpresent
  | setting =>
      rw [applyChange_eq hi hk hch nofun, hreads]
      refine changeSetting_fits hi hch fun hset => ?_
      obtain ⟨v, harg⟩ := reads_arg (hreads.trans hset)
      exact ⟨ho (hreads.trans hset), by simp [ho (hreads.trans hset), harg]⟩
  | status =>
      obtain ⟨a, harg⟩ := reads_arg hreads
      obtain ⟨k, hnick⟩ := hnamed hk a harg
      have happ : applyChange now byNick c s x = applyStatus c i x s := by
        rw [applyChange, hi, hk]
      rw [happ, hreads, if_pos rfl, ho hreads, harg]
      exact changePrefixMode_fits hi harg hnick
  | flag =>
      rw [applyChange_eq hi hk hch nofun, hreads, if_neg Bool.false_ne_true]
      exact changeBool_fits hi hch

/-- A letter without a place in the tables faults, and so does a missing mask in front of one that
is taken out. -/
theorem channelStateChangeMode_error (hready : ModeReady by' byNick c s)
    (htakes : needsArg s.info x.set x.mode = some x.arg.isSome) (hnamed : StatusNamed c s x)
    (ho : reads s.info x = true → o = x.arg) (hfits : ¬ ChangeFits c s x) :
    ∃ e, channelStateChangeMode now by' c x.set x.mode o s = .error e := by
  obtain ⟨kind, hk⟩ := modeKind_isSome htakes
  obtain ⟨ch, hch⟩ := hready.live
  have hreads := reads_eq hk htakes
  rw [channelStateChangeMode_eq hk]
  cases hi : modeSlot x.mode with
  | error e =>
      refine ⟨e, ?_⟩
      cases kind with
      | list =>
          obtain ⟨mask, harg⟩ := reads_arg hreads
          dsimp only
          rw [ho hreads, harg, changeNicklist, hi]
          rfl
      | setting =>
          dsimp only
          cases hset : x.set with
          | false =>
              unfold changeSetting
              rw [if_neg Bool.false_ne_true, setOption, hi]
              rfl
          | true =>
              obtain ⟨v, harg⟩ := reads_arg (hreads.trans hset)
              rw [ho (hreads.trans hset), harg, changeSetting, if_pos rfl, setOption, hi]
              rfl
      | status =>
          obtain ⟨a, harg⟩ := reads_arg hreads
          obtain ⟨k, hnick⟩ := hnamed hk a harg
          obtain ⟨cn, hcn⟩ := findChannelNick_live hnick
          dsimp only
          rw [ho hreads, harg, changePrefixMode, hnick, ok_bind]
          dsimp only
          rw [NetworkState.memb_eq hcn, ok_bind, modesChangeMode, hi]
          rfl
      | flag =>
          dsimp only
          rw [changeBool, NetworkState.chan_eq hch, ok_bind, modesChangeMode, hi]
          rfl
  | ok i =>
      -- only a mask that is taken out of a fetched list is left
      have hmasks : ¬ (modeKind s.info x.mode = some .list → x.set = false →
          ∀ ch, s.chanHeap c = some ch → ch.chanmodeNicklistPresent i = true →
            ∀ e ∈ (ch.chanmodeNicklist i).takeWhile fun e => e.hostmask ≠ x.arg, e.hostmask ≠ none) :=
        fun h => hfits ⟨i, hi, h⟩
      push Not at hmasks
      obtain ⟨hlist, hset, ch', hch', hpresent, e, he, hnone⟩ := hmasks
      cases hch.symm.trans hch'
      cases hk.symm.trans hlist
      obtain ⟨mask, harg⟩ := reads_arg hreads
      refine ⟨.null, ?_⟩
      dsimp only
      rw [ho hreads, harg, hset, changeNicklist, hi]
      dsimp only
      rw [ok_bind, NetworkState.chan_eq hch, ok_bind, if_pos hpresent, changeMasks,
        if_neg Bool.false_ne_true, nicklistRemoveEntry_error fun hall => ?_]
      · rfl
      · exact hall e (harg ▸ he) hnone

end

/-! ### The letters of a line -/

/-- All changes can be made, one after the other. -/
def AllFit (now : Long) (byNick : Option Str) (c : Ref) : NetworkState → List ModeChange → Prop
  | _, [] => True
  | s, x :: xs => ChangeFits c s x ∧ AllFit now byNick c (applyChange now byNick c s x) xs

/-- No letter with a parameter is behind a removed setting of class B. -/
def KeysLast (info : NetworkInfo) (xs : List ModeChange) : Prop :=
  xs.Pairwise fun x y => uncounted info x = true → y.arg = none

/-- What the letters must be for the parameters to be theirs; `lag` tells that one was left behind. -/
def ParametersMeet (info : NetworkInfo) (lag : Bool) (xs : List ModeChange) : Prop :=
  if lag then ∀ x ∈ xs, x.arg = none else KeysLast info xs

section
variable {now : Long} {by' : Option Ref} {byNick : Option Str} {c : Ref} {s s' : NetworkState}
  {x : ModeChange} {xs : List ModeChange} {info : NetworkInfo} {lag : Bool} {l : IrcLine} {w : Str}
  {t : Bool} {arg k : ℕ} {args : List Str} {m : Byte} {i : Fin MAXMODES} {calls : List ModeCall}

theorem parametersMeet_cons : ParametersMeet info lag (x :: xs) ↔
    (lag = true → x.arg = none) ∧ ParametersMeet info (lag || uncounted info x) xs := by
  cases lag with
  | true => simp [ParametersMeet]
  | false =>
      cases hx : uncounted info x with
      | false => simp [ParametersMeet, KeysLast, hx]
      | true =>
          simp only [ParametersMeet, KeysLast, hx, List.pairwise_cons, Bool.false_or, if_pos,
            Bool.false_eq_true, if_false, false_imp_iff, true_and, forall_const]
          exact and_iff_left_of_imp fun h => List.pairwise_of_forall_mem_list fun _ _ y hy _ => h y hy

theorem applyStatus_only (i : Fin MAXMODES) : ModesOnly c s (applyStatus c i x s) ∧
    (applyStatus c i x s).nickHeap = s.nickHeap ∧ (applyStatus c i x s).chanHeap c = s.chanHeap c := by
  unfold applyStatus
  split
  · split
    · next hcn => exact ⟨modesOnly_setMemb hcn rfl, rfl, rfl⟩
    · exact ⟨.refl c s, rfl, rfl⟩
  · exact ⟨.refl c s, rfl, rfl⟩

theorem ChannelState.applyChange_keeps (now : Long) (byNick : Option Str) (i : Fin MAXMODES)
    (x : ModeChange) (ch : ChannelState) (kind : ModeKind) :
    (ch.applyChange now byNick i x kind).nicks = ch.nicks ∧
    (ch.applyChange now byNick i x kind).network = ch.network := by
  cases kind with
  | list =>
      unfold ChannelState.applyChange
      dsimp only
      split <;> exact ⟨rfl, rfl⟩
  | _ => exact ⟨rfl, rfl⟩

/-- A change is one of modes. -/
theorem applyChange_only (hready : ModeReady by' byNick c s) :
    ModesOnly c s (applyChange now byNick c s x) ∧
    ModeReady by' byNick c (applyChange now byNick c s x) := by
  have keeps {s' : NetworkState} (hn : s'.nickHeap = s.nickHeap) (hlive : ∃ ch, s'.chanHeap c = some ch) :
      ModeReady by' byNick c s' := by
    refine ⟨?_, hlive⟩
    rw [← hready.setter]
    cases by' with
    | none => rfl
    | some b => simp only [setterNick, NetworkState.nick, hn]
  unfold applyChange
  split
  · obtain ⟨honly, hn, hc⟩ := applyStatus_only (c := c) (s := s) (x := x) ‹_›
    exact ⟨honly, keeps hn (hc ▸ hready.live)⟩
  · next i kind ch _ _ _ hch =>
    obtain ⟨hnicks, hnet⟩ := ChannelState.applyChange_keeps now byNick i x ch kind
    exact ⟨modesOnly_setChan hch hnicks hnet, keeps rfl ⟨_, Heap.set_same _ _ _⟩⟩
  · exact ⟨.refl c s, hready⟩

theorem StatusNamed.only (h : StatusNamed c s x) (honly : ModesOnly c s s') : StatusNamed c s' x := by
  intro hk a ha
  rw [honly.info] at hk
  obtain ⟨k, hfound⟩ := h hk a ha
  exact ⟨k, (honly.members a).trans hfound⟩

/-- A parameter is used by its letter unless it belongs to a removed setting of class B. -/
theorem uncounted_arg (htakes : needsArg info x.set x.mode = some x.arg.isSome)
    (h : uncounted info x = true) : x.arg.isSome = true := by
  have ht : networkChanmodeType x.mode info = .ok .setting := (of_decide_eq_true h).1
  simp only [needsArg, ht, Option.some.injEq] at htakes
  exact htakes.symm

theorem channelModeCalls_letter (hp : m ≠ chr '+') (hm : m ≠ chr '-') (hle : arg ≤ l.argc) :
    channelModeCalls now l by' c (m :: w) t arg s = (do
      let (s, ret) ← channelStateChangeMode now by' c t m l.args[arg]? s
      match ret with
      | none => pure (s, [⟨t, m, arg⟩])
      | some n => do
          let (s, calls) ← channelModeCalls now l by' c w t
            (if l.args[arg]?.isSome then arg + n else arg) s
          pure (s, ⟨t, m, arg⟩ :: calls)) := by
  rw [channelModeCalls, if_neg hp, if_neg hm, IrcLine.arg, if_pos hle]
  rfl

/-- The first call is that of the first letter. -/
theorem channelModeCalls_head (hp : m ≠ chr '+') (hm : m ≠ chr '-') (hle : arg ≤ l.argc)
    (h : channelModeCalls now l by' c (m :: w) t arg s = .ok (s', calls)) :
    ∃ calls', calls = ⟨t, m, arg⟩ :: calls' := by
  rw [channelModeCalls_letter hp hm hle] at h
  obtain ⟨⟨s₁, ret⟩, -, h⟩ := bind_eq_ok h
  cases ret with
  | none =>
      cases h
      exact ⟨[], rfl⟩
  | some n =>
      obtain ⟨⟨s₂, calls'⟩, -, h⟩ := bind_eq_ok h
      cases h
      exact ⟨calls', rfl⟩

theorem ownParameters_letter (hp : m ≠ chr '+') (hm : m ≠ chr '-')
    {o : Option Str} (htakes : needsArg info t m = some o.isSome) :
    ownParameters info t (m :: w) k = (t, m, if o.isSome then some k else none) ::
      ownParameters info t w (if o.isSome then k + 1 else k) := by
  rw [ownParameters, if_neg hp, if_neg hm, htakes]
  cases o <;> rfl

/-- The letters are handed their own parameters, and the changes are made from left to right. -/
def AlignedFrom (now : Long) (l : IrcLine) (by' : Option Ref) (byNick : Option Str) (c : Ref)
    (xs : List ModeChange) (w : Str) (t : Bool) (arg k : ℕ) (s : NetworkState) : Prop :=
  ∃ calls, channelModeCalls now l by' c w t arg s = .ok (xs.foldl (applyChange now byNick c) s, calls) ∧
    calls.map (ModeCall.parameter s.info) = ownParameters s.info t w k

/-- Where the code is with the parameters of a line: at the next one, or in front of it. -/
structure Cursor (l : IrcLine) (lag : Bool) (arg k : ℕ) (args : List Str) : Prop where
  inside : arg ≤ l.argc
  level : lag = false → arg = k ∧ l.args.drop k = args
  behind : lag = true → arg < k

theorem Cursor.head (h : Cursor l lag arg k (x.arg.toList ++ args)) (hlag : lag = true → x.arg = none)
    (hx : x.arg.isSome = true) : lag = false ∧ arg = k ∧ l.args[arg]? = x.arg := by
  obtain ⟨v, hv⟩ := Option.isSome_iff_exists.mp hx
  have level : lag = false := by
    refine Bool.eq_false_of_not_eq_true fun e => ?_
    rw [hlag e] at hv
    cases hv
  obtain ⟨rfl, hdrop⟩ := h.level level
  refine ⟨level, rfl, ?_⟩
  rw [← List.head?_drop, hdrop, hv]
  rfl

/-- The cursor behind a letter. -/
theorem Cursor.next (h : Cursor l lag arg k (x.arg.toList ++ args)) (hlag : lag = true → x.arg = none)
    (htakes : needsArg info x.set x.mode = some x.arg.isSome) :
    Cursor l (lag || uncounted info x)
      (if l.args[arg]?.isSome then arg + (if reads info x then 1 else 0) else arg)
      (if x.arg.isSome then k + 1 else k) args := by
  cases harg : x.arg with
  | none =>
      have hun : uncounted info x = false :=
        Bool.eq_false_of_not_eq_true fun e => by simpa [harg] using uncounted_arg htakes e
      have hreads : reads info x = false := by rw [reads, harg]; rfl
      rw [harg] at h
      rw [hun, hreads, Bool.or_false, if_neg Bool.false_ne_true, Nat.add_zero, ite_self]
      exact h
  | some v =>
      obtain ⟨rfl, rfl, hhead⟩ := h.head hlag (by rw [harg]; rfl)
      have hlt : arg < l.argc := (List.getElem?_eq_some_iff.mp (hhead.trans harg)).1
      have hdrop : l.args.drop (arg + 1) = args := by
        rw [← List.drop_drop, (h.level rfl).2, harg]
        rfl
      rw [hhead, harg, Option.isSome_some, if_pos rfl, if_pos rfl, Bool.false_or]
      cases hun : uncounted info x with
      | true =>
          have hreads : reads info x = false := by rw [reads, hun, Bool.not_true, Bool.and_false]
          rw [hreads, if_neg Bool.false_ne_true, Nat.add_zero]
          exact ⟨h.inside, fun hno => absurd hno.symm Bool.false_ne_true, fun _ => Nat.lt_succ_self arg⟩
      | false =>
          have hreads : reads info x = true := by rw [reads, hun, harg]; rfl
          rw [hreads, if_pos rfl]
          exact ⟨hlt, fun _ => ⟨rfl, hdrop⟩, fun hno => absurd hno Bool.false_ne_true⟩

/-- The letters of a change are handed their own parameters, and make their changes, if no parameter
is left behind and all changes can be made; and not otherwise. -/
theorem alignedFrom_iff (hready : ModeReady by' byNick c s)
    (hx : modeChanges s.info t w args = some xs) (hnamed : ∀ x ∈ xs, StatusNamed c s x)
    (hcur : Cursor l lag arg k args) : AlignedFrom now l by' byNick c xs w t arg k s ↔
      ParametersMeet s.info lag xs ∧ AllFit now byNick c s xs := by
  induction w generalizing t args xs lag arg k s with
  | nil =>
      unfold modeChanges at hx
      cases hx
      refine iff_of_true ⟨[], rfl, rfl⟩ ⟨?_, trivial⟩
      cases lag with
      | true => exact fun x hx => absurd hx List.not_mem_nil
      | false => exact .nil
  | cons m w ih =>
      by_cases hp : m = chr '+'
      · rw [modeChanges_plus hp] at hx
        unfold AlignedFrom
        rw [channelModeCalls, ownParameters, if_pos hp, if_pos hp]
        exact ih hready hx hnamed hcur
      by_cases hm : m = chr '-'
      · rw [modeChanges_minus hp hm] at hx
        unfold AlignedFrom
        rw [channelModeCalls, ownParameters, if_neg hp, if_pos hm, if_neg hp, if_pos hm]
        exact ih hready hx hnamed hcur
      obtain ⟨a, args', xs', rfl, hx', htakes, rfl⟩ := modeChanges_letter hp hm hx
      have own := ownParameters_letter (w := w) (k := k) hp hm htakes
      rw [parametersMeet_cons, and_assoc]
      by_cases hlag : lag = true → a = none
      swap
      · -- the letter is handed a parameter in front of its own
        refine iff_of_false ?_ fun h => hlag h.1
        rintro ⟨calls, hcalls, hmap⟩
        obtain ⟨hbehind, hsome⟩ := Classical.not_imp.mp hlag
        obtain ⟨v, rfl⟩ := Option.ne_none_iff_exists'.mp hsome
        obtain ⟨calls', rfl⟩ := channelModeCalls_head hp hm hcur.inside hcalls
        rw [own, List.map_cons, ModeCall.parameter, htakes] at hmap
        injection hmap with hfirst _
        have hk : arg = k := by simpa using hfirst
        exact absurd hk (hcur.behind hbehind).ne
      have hown : reads s.info ⟨t, m, a⟩ = true → l.args[arg]? = a := fun h =>
        (hcur.head (x := ⟨t, m, a⟩) hlag (Bool.and_eq_true _ _ ▸ h).1).2.2
      have first : StatusNamed c s ⟨t, m, a⟩ := hnamed _ List.mem_cons_self
      by_cases hfits : ChangeFits c s ⟨t, m, a⟩
      swap
      · -- the letter faults
        have fault : ∃ e, channelStateChangeMode now by' c t m l.args[arg]? s = .error e :=
          channelStateChangeMode_error hready htakes first hown hfits
        obtain ⟨e, he⟩ := fault
        refine iff_of_false ?_ fun h => hfits h.2.2.1
        rintro ⟨calls, hcalls, -⟩
        rw [channelModeCalls_letter hp hm hcur.inside, he] at hcalls
        cases hcalls
      have step : channelStateChangeMode now by' c t m l.args[arg]? s =
          .ok (applyChange now byNick c s ⟨t, m, a⟩, some (if reads s.info ⟨t, m, a⟩ then 1 else 0)) :=
        channelStateChangeMode_fits hready htakes first hown hfits
      obtain ⟨honly, hready'⟩ : ModesOnly c s (applyChange now byNick c s ⟨t, m, a⟩) ∧
          ModeReady by' byNick c (applyChange now byNick c s ⟨t, m, a⟩) := applyChange_only hready
      have rest := ih hready' (by rw [honly.info]; exact hx')
        (fun x hx => (hnamed x (List.mem_cons_of_mem _ hx)).only honly)
        (hcur.next (x := ⟨t, m, a⟩) hlag htakes)
      rw [honly.info] at rest
      refine Iff.trans ?_ (rest.trans ⟨fun h => ⟨hlag, h.1, hfits, h.2⟩, fun h => ⟨h.2.1, h.2.2.2⟩⟩)
      have same : ModeCall.parameter s.info ⟨t, m, arg⟩ = (t, m, if a.isSome then some k else none) := by
        rw [ModeCall.parameter, htakes]
        cases a with
        | none => rfl
        | some v => rw [(hcur.head (x := ⟨t, m, some v⟩) hlag rfl).2.1]; rfl
      unfold AlignedFrom
      rw [channelModeCalls_letter hp hm hcur.inside, step, ok_bind, own, honly.info, List.foldl_cons]
      dsimp only
      constructor
      · rintro ⟨calls, hcalls, hmap⟩
        obtain ⟨⟨s₁, calls'⟩, hrun, he⟩ := bind_eq_ok hcalls
        cases he
        rw [List.map_cons, same] at hmap
        exact ⟨calls', hrun, (List.cons.inj hmap).2⟩
      · rintro ⟨calls, hcalls, hmap⟩
        refine ⟨_, by rw [hcalls]; rfl, ?_⟩
        rw [List.map_cons, same, hmap]

end

/-! ### A line -/

/-- Who changes modes with a line, and the name that is noted for it. -/
def modeSetter (s : NetworkState) (l : IrcLine) : Except Fault (Option Ref × Option Str) := do
  let byName ← lineGetNick l
  let by' ← findNetworkNick s byName
  let byNick ← setterNick s by'
  pure (by', byNick)

/-- A MODE line hands every letter its own parameter, and leaves the state that the changes `xs` of
it make, one after the other. -/
def AlignedLine (now : Long) (c : Ref) (s : NetworkState) (l : IrcLine) (xs : List ModeChange) : Prop :=
  ∃ w by' byNick calls s', l.args[2]? = some w ∧ modeSetter s l = .ok (by', byNick) ∧
    channelModeCalls now l by' c w true 3 s = .ok (s', calls) ∧
    calls.map (ModeCall.parameter s.info) = ownParameters s.info true w 3 ∧
    stateStep s (now, l) = .ok s' ∧ s' = xs.foldl (applyChange now byNick c) s

/-- The setter of a line is known, no parameter of it is left behind, and its changes can be made. -/
def AlignedInput (now : Long) (c : Ref) (s : NetworkState) (l : IrcLine) (xs : List ModeChange) : Prop :=
  ∃ by' byNick, modeSetter s l = .ok (by', byNick) ∧ KeysLast s.info xs ∧ AllFit now byNick c s xs

/-- A MODE line for a channel that is known: each of its letters was announced and has its own
parameter, and whom it names is on the channel. -/
structure ModeLineFor (s : NetworkState) (c : Ref) (l : IrcLine) (xs : List ModeChange) : Prop where
  command : commandOf l = some .mode
  channel : ∃ name, l.args[1]? = some name ∧ isChannelname name s.info = .ok true ∧
    findChannel s name = .ok (some c)
  changes : lineChanges s.info l 2 = some xs
  named : ∀ x ∈ xs, StatusNamed c s x

section
variable {now : Long} {c : Ref} {s s' : NetworkState} {l : IrcLine} {xs : List ModeChange}
  {by' : Option Ref} {byNick : Option Str} {w : Str}

/-- The calls that a MODE line makes are those of its setter. -/
theorem stateStep_mode (h : ModeLineFor s c l xs) (hw : l.args[2]? = some w) :
    stateStep s (now, l) = (do
      let byName ← lineGetNick l
      let by' ← findNetworkNick s byName
      channelModeLoop now l by' c w true 3 s) := by
  obtain ⟨name, hname, hchan, hfound⟩ := h.channel
  rw [stateStep_handler h.command]
  change handleMode now s l = _
  rw [handleMode, IrcLine.argStr_eq hname, ok_bind, IrcLine.argStr_eq hw, ok_bind, hchan, ok_bind,
    if_pos rfl, hfound]
  rfl

theorem modeSetter_inv (h : modeSetter s l = .ok (by', byNick)) :
    (∃ byName, lineGetNick l = .ok byName ∧ findNetworkNick s byName = .ok by') ∧
    setterNick s by' = .ok byNick := by
  obtain ⟨byName, hname, h⟩ := bind_eq_ok h
  obtain ⟨by₁, hby, h⟩ := bind_eq_ok h
  obtain ⟨nick, hnick, h⟩ := bind_eq_ok h
  cases h
  exact ⟨⟨byName, hname, hby⟩, hnick⟩

/-- A channel that was found, and the letters of a line at the first parameter. -/
theorem ModeLineFor.letters (h : ModeLineFor s c l xs) (hw : l.args[2]? = some w)
    (hset : modeSetter s l = .ok (by', byNick)) : AlignedFrom now l by' byNick c xs w true 3 3 s ↔
      KeysLast s.info xs ∧ AllFit now byNick c s xs := by
  have hlt : 2 < l.args.length := commandOf_argc h.command
  obtain ⟨name, -, -, hfound⟩ := h.channel
  obtain ⟨ch, hch, -⟩ := bind_eq_ok (findFirst_some hfound).2
  have hx : modeChanges s.info true w (l.args.drop 3) = some xs := by
    have hx := h.changes
    rwa [lineChanges, hw, Option.getD_some] at hx
  have cursor : Cursor l false 3 3 (l.args.drop 3) :=
    ⟨hlt, fun _ => ⟨rfl, rfl⟩, fun hno => absurd hno Bool.false_ne_true⟩
  exact alignedFrom_iff ⟨(modeSetter_inv hset).2, ch, NetworkState.chan_inv hch⟩ hx h.named cursor

theorem AlignedLine.input (h : ModeLineFor s c l xs) (ha : AlignedLine now c s l xs) :
    AlignedInput now c s l xs := by
  obtain ⟨w, by', byNick, calls, s', hw, hset, hcalls, hmap, -, rfl⟩ := ha
  exact ⟨by', byNick, hset, (h.letters hw hset).mp ⟨calls, hcalls, hmap⟩⟩

/-- A MODE line pairs its letters with their own parameters, and makes their changes from left to
right, exactly when no letter with a parameter is behind a removed setting of class B. -/
theorem handleMode_aligned_iff (h : ModeLineFor s c l xs) :
    AlignedLine now c s l xs ↔ AlignedInput now c s l xs := by
  refine ⟨AlignedLine.input h, ?_⟩
  rintro ⟨by', byNick, hset, hmeet⟩
  have hlt : 2 < l.args.length := commandOf_argc h.command
  obtain ⟨w, hw⟩ : ∃ w, l.args[2]? = some w := ⟨_, List.getElem?_eq_getElem hlt⟩
  obtain ⟨calls, hcalls, hmap⟩ := (h.letters hw hset).mpr hmeet
  obtain ⟨⟨byName, hname, hby⟩, -⟩ := modeSetter_inv hset
  refine ⟨w, by', byNick, calls, _, hw, hset, hcalls, hmap, ?_, rfl⟩
  rw [stateStep_mode h hw, hname, ok_bind, hby, ok_bind, channelModeLoop_eq_calls, hcalls]
  rfl

/-- The status of a member and a limit are set. -/
def opAndLimit : IrcLine := (inputOf ":me!user@host MODE #c +ol joe 5").2

def opAndLimitChanges : List ModeChange :=
  [⟨true, chr 'o', some (str "joe")⟩, ⟨true, chr 'l', some (str "5")⟩]

/-- A key is removed and a limit is set. -/
def keyThenLimit : IrcLine := (inputOf ":me!user@host MODE #c -k+l key 5").2

def keyThenLimitChanges : List ModeChange :=
  [⟨false, chr 'k', some (str "key")⟩, ⟨true, chr 'l', some (str "5")⟩]

theorem handleMode_aligned_iff_op : ∃ s, twoJoined = .ok s ∧
    AlignedLine long0 1 s opAndLimit opAndLimitChanges := by
  have run : twoJoined.map (fun s => decide (
      findChannel s (str "#c") = .ok (some 1) ∧ isChannelname (str "#c") s.info = .ok true ∧
      lineChanges s.info opAndLimit 2 = some opAndLimitChanges ∧
      findChannelNick s 1 (str "joe") = .ok (some 4) ∧
      modeSetter s opAndLimit = .ok (some meRef, some (str "me")) ∧
      modeKind s.info (chr 'o') = some .status ∧
      modeKind s.info (chr 'l') = some .setting)) = .ok true := by
    decide +kernel
  obtain ⟨s, hs, hr⟩ := map_eq_ok run
  obtain ⟨hfind, hname, hx, hjoe, hset, ho, hl⟩ := of_decide_eq_true hr
  have named : ∀ x ∈ opAndLimitChanges, StatusNamed 1 s x := by
    intro x hx hk a ha
    rcases List.mem_pair.mp hx with rfl | rfl
    · obtain rfl := Option.some.inj ha
      exact ⟨4, hjoe⟩
    · rw [hl] at hk
      cases hk
  have line : ModeLineFor s 1 opAndLimit opAndLimitChanges :=
    ⟨by decide +kernel, ⟨str "#c", by decide +kernel, hname, hfind⟩, hx, named⟩
  refine ⟨s, hs, (handleMode_aligned_iff line).mpr ⟨_, _, hset, ?_, ?_, ?_, trivial⟩⟩
  · exact List.pairwise_pair.mpr fun h => absurd (of_decide_eq_true h).2 (by decide)
  · exact ⟨⟨(chr 'o').1, by decide⟩, rfl, fun h => absurd (ho.symm.trans h) (by decide)⟩
  · refine ⟨⟨(chr 'l').1, by decide⟩, rfl, fun h _ => ?_⟩
    have ready : ModeReady (some meRef) (some (str "me")) 1 s := by
      obtain ⟨ch, hch, -⟩ := bind_eq_ok (findFirst_some hfind).2
      exact ⟨(modeSetter_inv hset).2, ch, NetworkState.chan_inv hch⟩
    rw [(applyChange_only ready).1.info, hl] at h
    cases h

/-- A removed key leaves its parameter to the limit. -/
theorem key_shifts_limit : ∃ s s', twoJoined = .ok s ∧
    ModeLineFor s 1 keyThenLimit keyThenLimitChanges ∧
    stateStep s (long0, keyThenLimit) = .ok s' ∧
    (s'.chanHeap 1).any (fun ch => paramOf ch (chr 'l') = some (str "key")) = true ∧
    ¬ AlignedLine long0 1 s keyThenLimit keyThenLimitChanges := by
  have run : (twoJoined >>= fun s => do
      let s' ← stateStep s (long0, keyThenLimit)
      pure (decide (
        findChannel s (str "#c") = .ok (some 1) ∧ isChannelname (str "#c") s.info = .ok true ∧
        lineChanges s.info keyThenLimit 2 = some keyThenLimitChanges ∧
        modeKind s.info (chr 'k') = some .setting ∧ modeKind s.info (chr 'l') = some .setting ∧
        uncounted s.info ⟨false, chr 'k', some (str "key")⟩ = true ∧
        (s'.chanHeap 1).any (fun ch => paramOf ch (chr 'l') = some (str "key")) = true))) =
      .ok true := by
    decide +kernel
  obtain ⟨s, hs, run⟩ := bind_eq_ok run
  obtain ⟨s', hs', hr⟩ := bind_eq_ok run
  obtain ⟨hfind, hname, hx, hk, hl, hun, hparam⟩ := of_decide_eq_true (Except.ok.inj hr)
  have named : ∀ x ∈ keyThenLimitChanges, StatusNamed 1 s x := by
    intro x hx hstatus
    rcases List.mem_pair.mp hx with rfl | rfl
    · rw [hk] at hstatus
      cases hstatus
    · rw [hl] at hstatus
      cases hstatus
  have line : ModeLineFor s 1 keyThenLimit keyThenLimitChanges :=
    ⟨by decide +kernel, ⟨str "#c", by decide +kernel, hname, hfind⟩, hx, named⟩
  refine ⟨s, s', hs, line, hs', hparam, fun aligned => ?_⟩
  obtain ⟨-, -, -, hlast, -⟩ := aligned.input line
  exact absurd (List.pairwise_pair.mp hlast hun) nofun

end

end Ctrlproxy
