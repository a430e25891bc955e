import Ctrlproxy.State.Lookup
import Ctrlproxy.State.Modes

/-!
# State — what numeric replies are about

A numeric reply names its recipient before its target.  `TargetReply.Obeyed` says what a reply asks
for: one field of the channel it names, or the modes of the user, and nothing else.  The handlers of
332, 333, 324 and 329 look for the channel behind the recipient.  `handle_no_topic` looks for a channel
with the recipient's name, and `handle_umodeis` reads the recipient's name as the modes.
`targetReply_obeyed_iff` says for each reply when it is obeyed.
-/

namespace Ctrlproxy
open Outcome

/-! ### Replies and what they ask for -/

/-- The replies about one field of a channel. -/
inductive ChannelReply where
  | noTopic (text : Str)
  | topic (topic : Str)
  | topicSetter (by' time : Str)
  | modes (modes : Str) (params : List Str)
  | created (time : Str)
  deriving DecidableEq

/-- The replies: about a channel, or about the modes of the user. -/
inductive TargetReply where
  | channel (name : Str) (r : ChannelReply)
  | userModes (modes : Str)
  deriving DecidableEq

/-- The arguments of a reply to the user `me`. -/
def TargetReply.args (me : Str) : TargetReply → List Str
  | channel c (.noTopic text) => [str "331", me, c, text]
  | channel c (.topic topic) => [str "332", me, c, topic]
  | channel c (.topicSetter by' time) => [str "333", me, c, by', time]
  | channel c (.modes modes params) => str "324" :: me :: c :: modes :: params
  | channel c (.created time) => [str "329", me, c, time]
  | userModes modes => [str "221", me, modes]

/-- The sign that stands behind a text. -/
def signBehind (t : Bool) (w : Str) : Bool :=
  w.foldl (fun t b => if b = chr '+' then true else if b = chr '-' then false else t) t

/-- A mode string, which starts with a sign, lists a letter that is last behind a plus. -/
structure Lists (w : Str) (m : Byte) : Prop where
  signed : w.head? = some (chr '+') ∨ w.head? = some (chr '-')
  letter : m ≠ chr '+' ∧ m ≠ chr '-'
  last : ∃ u v, w = u ++ m :: v ∧ m ∉ v ∧ signBehind true u = true

/-- The modes that are set are those that a mode string lists. -/
structure ListedBy (w : Str) (modes : Modes) : Prop where
  nul : modes ⟨0, by decide⟩ = false
  flag : ∀ m, flagOf modes m = true ↔ Lists w m

/-- The channel before a reply and the channel that the reply asks for. -/
def ChannelReply.Asks (ch ch' : ChannelState) : ChannelReply → Prop
  | .noTopic _ => ch' = { ch with topic := none }
  | .topic w => ch' = { ch with topic := some w }
  | .topicSetter by' time => ch' = { ch with topicSetBy := some by', topicSetTime := atol time }
  | .modes w _ => ∃ modes, ListedBy w modes ∧ ch' = { ch with modes := modes }
  | .created time => ch' = { ch with creationTime := atol time }

/-- The named channel alone is changed, and nothing where no channel has the name. -/
structure OnlyChanged (c : Str) (Asks : ChannelState → ChannelState → Prop) (s s' : NetworkState) :
    Prop where
  known : ∀ x ch, findChannel s c = .ok (some x) → s.chanHeap x = some ch →
    ∃ ch', Asks ch ch' ∧ s' = s.setChan x ch'
  unknown : findChannel s c = .ok none → s' = s

/-- The state after a reply is the one it asks for. -/
def TargetReply.Obeyed (s s' : NetworkState) : TargetReply → Prop
  | channel c r => OnlyChanged c (fun ch ch' => r.Asks ch ch') s s'
  | userModes w => ∃ n modes, s.nickHeap meRef = some n ∧ ListedBy w modes ∧
      s' = s.setNick meRef { n with modes := modes }

/-! ### When a reply is obeyed -/

/-- The channel with a name, if there is one, has a property. -/
def IfKnown (s : NetworkState) (c : Str) (P : ChannelState → Prop) : Prop :=
  ∀ x ch, findChannel s c = .ok (some x) → s.chanHeap x = some ch → P ch

/-- What a reply must meet to be obeyed. -/
def TargetReply.Met (s : NetworkState) (me : Str) : TargetReply → Prop
  | channel c (.noTopic _) => findChannel s me = findChannel s c ∨
      (IfKnown s me (·.topic = none) ∧ IfKnown s c (·.topic = none))
  | channel _ (.topic _) => True
  | channel c (.topicSetter _ time) => IfKnown s c fun _ => (strtol time 0).1 = atol time
  | channel c (.modes w _) => IfKnown s c fun ch => ¬ SignedFF w ∧ ch.modeReceived = true
  | channel _ (.created _) => True
  | userModes w => ¬ SignedFF me ∧ ∀ m, Lists me m ↔ Lists w m

/-! ### Mode strings -/

section
variable {t : Bool} {modes modes' : Modes} {w : Str} {m : Byte}

theorem signBehind_cons (b : Byte) : signBehind t (b :: w) =
    signBehind (if b = chr '+' then true else if b = chr '-' then false else t) w :=
  rfl

/-- The last place of a letter in a longer text. -/
theorem last_cons {b : Byte} {P : Str → Prop} :
    (∃ u v, b :: w = u ++ m :: v ∧ m ∉ v ∧ P u) ↔
      (∃ u v, w = u ++ m :: v ∧ m ∉ v ∧ P (b :: u)) ∨ (b = m ∧ m ∉ w ∧ P []) := by
  constructor
  · rintro ⟨u, v, e, hv, hP⟩
    cases u with
    | nil =>
        obtain ⟨rfl, rfl⟩ := List.cons.inj e
        exact .inr ⟨rfl, hv, hP⟩
    | cons b' u =>
        obtain ⟨rfl, rfl⟩ := List.cons.inj e
        exact .inl ⟨u, v, rfl, hv, hP⟩
  · rintro (⟨u, v, rfl, hv, hP⟩ | ⟨rfl, hw, hP⟩)
    · exact ⟨b :: u, v, rfl, hv, hP⟩
    · exact ⟨[], w, rfl, hw, hP⟩

/-- A letter is set by its last place in a text, and stays as it was if it has none. -/
theorem changeModes_flag (hm : m ≠ chr '+' ∧ m ≠ chr '-') (h : changeModes t modes w = .ok modes') :
    flagOf modes' m = true ↔
      (∃ u v, w = u ++ m :: v ∧ m ∉ v ∧ signBehind t u = true) ∨ (m ∉ w ∧ flagOf modes m = true) := by
  induction w generalizing t modes with
  | nil =>
      rw [changeModes] at h
      cases h
      simp
  | cons b w ih =>
      rw [last_cons]
      -- a sign is no place of the letter
      have sign (hb : b ≠ m) (h : changeModes (signBehind t [b]) modes w = .ok modes') :
          flagOf modes' m = true ↔ ((∃ u v, w = u ++ m :: v ∧ m ∉ v ∧ signBehind t (b :: u) = true) ∨
            (b = m ∧ m ∉ w ∧ signBehind t [] = true)) ∨ (m ∉ b :: w ∧ flagOf modes m = true) := by
        rw [ih h, List.mem_cons, not_or]
        simp [hb, hb.symm, signBehind]
      rw [changeModes] at h
      by_cases hp : b = chr '+'
      · rw [if_pos hp] at h
        exact sign (fun e => hm.1 (e ▸ hp)) (by rwa [signBehind_cons, if_pos hp])
      by_cases hn : b = chr '-'
      · rw [if_neg hp, if_pos hn] at h
        exact sign (fun e => hm.2 (e ▸ hn)) (by rwa [signBehind_cons, if_neg hp, if_pos hn])
      rw [if_neg hp, if_neg hn] at h
      obtain ⟨modes₁, h₁, h⟩ := bind_eq_ok h
      obtain ⟨i, hi, h₁⟩ := bind_eq_ok h₁
      cases h₁
      rw [ih h, flagOf_set hi]
      simp only [signBehind_cons, if_neg hp, if_neg hn, List.mem_cons]
      by_cases hbm : b = m
      · subst hbm
        simp only [if_true, true_and, true_or, not_true_eq_false, false_and, or_false]
        rfl
      · rw [if_neg fun e => hbm e.symm]
        simp [hbm, Ne.symm hbm]

/-- Signs are never set. -/
theorem changeModes_sign (hm : ¬ (m ≠ chr '+' ∧ m ≠ chr '-'))
    (h : changeModes t modes w = .ok modes') : flagOf modes' m = flagOf modes m := by
  induction w generalizing t modes with
  | nil =>
      rw [changeModes] at h
      cases h
      rfl
  | cons b w ih =>
      rw [changeModes] at h
      split at h
      · exact ih h
      split at h
      · exact ih h
      · next hp hn =>
        obtain ⟨modes₁, h₁, h⟩ := bind_eq_ok h
        obtain ⟨i, hi, h₁⟩ := bind_eq_ok h₁
        cases h₁
        rw [ih h, flagOf_set hi, if_neg]
        rintro rfl
        exact hm ⟨hp, hn⟩

/-- The loop returned only over a text without `0xFF`. -/
theorem changeModes_noFF (h : changeModes t modes w = .ok modes') : byteFF ∉ w := by
  induction w generalizing t modes with
  | nil => exact List.not_mem_nil
  | cons b w ih =>
      rw [changeModes] at h
      rw [List.mem_cons, not_or]
      split at h
      · next hp =>
        exact ⟨fun e => absurd (e.trans hp) (by decide), ih h⟩
      split at h
      · next hn =>
        exact ⟨fun e => absurd (e.trans hn) (by decide), ih h⟩
      · obtain ⟨modes₁, h₁, h⟩ := bind_eq_ok h
        refine ⟨?_, ih h⟩
        rintro rfl
        cases h₁

/-- A text without a sign in front, or without `0xFF`, is read, and lists what is set then. -/
theorem string2mode_listed (h : ¬ SignedFF w) : ∃ r, string2mode (some w) = .ok r ∧ ListedBy w r.1 := by
  obtain ⟨r, hr, hnul⟩ := (string2mode_ensures (E := fun _ => False) h modesClear).exists_ok
  refine ⟨r, hr, Bool.eq_false_iff.mpr fun h0 => Bool.false_ne_true (hnul h0), fun m => ?_⟩
  have clear : flagOf modesClear m ≠ true := by
    unfold flagOf
    cases modeSlot m <;> exact Bool.false_ne_true
  cases w with
  | nil =>
      cases hr
      exact iff_of_false clear fun hl => by simpa using hl.signed
  | cons b w =>
      rw [string2mode] at hr
      split at hr
      · next hb =>
        cases hr
        refine iff_of_false clear fun hl => ?_
        rcases hl.signed with e | e
        · exact hb.1 (Option.some.inj e)
        · exact hb.2 (Option.some.inj e)
      · next hb =>
        have signed : (b :: w).head? = some (chr '+') ∨ (b :: w).head? = some (chr '-') := by
          rw [List.head?_cons, Option.some_inj, Option.some_inj]
          tauto
        obtain ⟨modes, hmodes, hr⟩ := bind_eq_ok hr
        cases hr
        dsimp only
        by_cases hm : m ≠ chr '+' ∧ m ≠ chr '-'
        · rw [changeModes_flag hm hmodes]
          constructor
          · rintro (hl | ⟨-, hset⟩)
            · exact ⟨signed, hm, hl⟩
            · exact absurd hset clear
          · exact fun hl => .inl hl.last
        · rw [changeModes_sign hm hmodes]
          exact iff_of_false clear fun hl => hm hl.letter

/-- A text that is read is no signed text with `0xFF`. -/
theorem string2mode_noFF {r : Modes × Bool} (h : string2mode (some w) = .ok r) : ¬ SignedFF w := by
  rintro ⟨hs, hFF⟩
  cases w with
  | nil => cases hFF
  | cons b w =>
      rw [string2mode, if_neg] at h
      · obtain ⟨modes, hmodes, -⟩ := bind_eq_ok h
        exact changeModes_noFF hmodes hFF
      · rintro ⟨hp, hn⟩
        rcases hs with e | e
        · exact hp (Option.some.inj e)
        · exact hn (Option.some.inj e)

/-- Two texts that the same modes are listed by list the same. -/
theorem ListedBy.same {w' : Str} (h : ListedBy w modes) (h' : ListedBy w' modes) :
    ∀ m, Lists w m ↔ Lists w' m :=
  fun m => (h.flag m).symm.trans (h'.flag m)

theorem ListedBy.congr {w' : Str} (h : ListedBy w modes) (e : ∀ m, Lists w m ↔ Lists w' m) :
    ListedBy w' modes :=
  ⟨h.nul, fun m => (h.flag m).trans (e m)⟩

end

/-! ### Handlers -/

/-- The channel with a name is changed. -/
def changeNamed (s : NetworkState) (name : Str) (f : ChannelState → ChannelState) :
    Except Fault NetworkState := do
  match ← findChannel s name with
  | none => pure s
  | some c => s.modifyChan c f

section
variable {s s' : NetworkState} {l : IrcLine} {c me : Str} {f : ChannelState → ChannelState}
  {Asks : ChannelState → ChannelState → Prop} {x : Ref} {ch ch' : ChannelState}

theorem setChan_inj (h : s.setChan x ch = s.setChan x ch') : ch = ch' := by
  have e := congrFun (congrArg NetworkState.chanHeap h) x
  rw [NetworkState.setChan_chanHeap, NetworkState.setChan_chanHeap, Heap.set_same, Heap.set_same] at e
  exact Option.some.inj e

theorem changeNamed_none (h : findChannel s c = .ok none) : changeNamed s c f = .ok s := by
  rw [changeNamed, h, ok_bind, pure_eq_ok]

theorem changeNamed_some (h : findChannel s c = .ok (some x)) (hch : s.chanHeap x = some ch) :
    changeNamed s c f = .ok (s.setChan x (f ch)) := by
  rw [changeNamed, h, ok_bind]
  dsimp only
  rw [NetworkState.modifyChan, NetworkState.chan_eq hch, ok_bind, pure_eq_ok]

/-- A search in a consistent state finds nothing, or a channel. -/
theorem findChannel_cases (hg : Graph s) (c : Str) : findChannel s c = .ok none ∨
    ∃ x ch, findChannel s c = .ok (some x) ∧ s.chanHeap x = some ch := by
  obtain ⟨r, hr, hmem⟩ := (findChannel_total hg c).exists_ok
  cases r with
  | none => exact .inl hr
  | some x =>
      obtain ⟨ch, hch, -⟩ := hg.chan_live x (hmem x rfl)
      exact .inr ⟨x, ch, hr, hch⟩

theorem ifKnown_none {P : ChannelState → Prop} (h : findChannel s c = .ok none) : IfKnown s c P :=
  fun x _ hx => by cases h.symm.trans hx

theorem ifKnown_some {P : ChannelState → Prop} (h : findChannel s c = .ok (some x))
    (hch : s.chanHeap x = some ch) : IfKnown s c P ↔ P ch := by
  refine ⟨fun hP => hP x ch h hch, fun hP x' ch' hx' hch' => ?_⟩
  cases h.symm.trans hx'
  cases hch.symm.trans hch'
  exact hP

/-- A change of the channel with a name is the one that is asked for if it is at that channel. -/
theorem changeNamed_iff (hg : Graph s) : (∃ s', changeNamed s c f = .ok s' ∧ OnlyChanged c Asks s s') ↔
    IfKnown s c fun ch => Asks ch (f ch) := by
  rcases findChannel_cases hg c with hno | ⟨x, ch, hx, hch⟩
  · refine iff_of_true ⟨s, changeNamed_none hno, fun x ch hx => ?_, fun _ => rfl⟩ (ifKnown_none hno)
    cases hno.symm.trans hx
  · rw [changeNamed_some hx hch, ifKnown_some hx hch]
    constructor
    · rintro ⟨s', hs', h⟩
      obtain ⟨ch', hasks, e⟩ := h.known x ch hx hch
      rwa [setChan_inj ((Except.ok.inj hs').trans e)]
    · intro h
      refine ⟨_, rfl, fun x' ch' hx' hch' => ?_, fun hno => ?_⟩
      · cases hx.symm.trans hx'
        cases hch.symm.trans hch'
        exact ⟨_, h, rfl⟩
      · cases hno.symm.trans hx

/-- The channel with a name has no topic if it is the same without. -/
theorem withoutTopic_iff (hg : Graph s) :
    changeNamed s c (fun ch => { ch with topic := none }) = .ok s ↔ IfKnown s c (·.topic = none) := by
  rcases findChannel_cases hg c with hno | ⟨x, ch, hx, hch⟩
  · exact iff_of_true (changeNamed_none hno) (ifKnown_none hno)
  · rw [changeNamed_some hx hch, ifKnown_some hx hch]
    constructor
    · intro e
      have same := setChan_inj ((Except.ok.inj e).trans (setChan_self hch).symm)
      exact (congrArg ChannelState.topic same).symm
    · intro e
      have same : { ch with topic := none } = ch := by rw [← e]
      rw [same, setChan_self hch]

/-- A 332 reply sets the topic of the channel. -/
theorem handle332_onlyChanged (hg : Graph s) {w : Str} (hc : l.args[2]? = some c)
    (hw : l.args[3]? = some w) : ∃ s', handle332 s l = .ok s' ∧
      OnlyChanged c (fun ch ch' => ch' = { ch with topic := some w }) s s' := by
  have read : handle332 s l = changeNamed s c fun ch => { ch with topic := some w } := by
    rw [handle332, IrcLine.argStr_eq hc, IrcLine.arg_eq hw]
    rfl
  rw [read, changeNamed_iff hg]
  exact fun _ _ _ _ => rfl

/-- A 329 reply sets the creation time of the channel. -/
theorem handle329_onlyChanged (hg : Graph s) {time : Str} (hc : l.args[2]? = some c)
    (ht : l.args[3]? = some time) : ∃ s', handle329 s l = .ok s' ∧
      OnlyChanged c (fun ch ch' => ch' = { ch with creationTime := atol time }) s s' := by
  have read : handle329 s l = changeNamed s c fun ch => { ch with creationTime := atol time } := by
    rw [handle329, IrcLine.argStr_eq hc, IrcLine.argStr_eq ht]
    rfl
  rw [read, changeNamed_iff hg]
  exact fun _ _ _ _ => rfl

/-- What a 333 reply asks for is done if its time reads the same in base 0. -/
theorem handle333_iff (hg : Graph s) {by' time : Str} (hc : l.args[2]? = some c)
    (hb : l.args[3]? = some by') (ht : l.args[4]? = some time) :
    (∃ s', handle333 s l = .ok s' ∧ OnlyChanged c (fun ch ch' =>
        ch' = { ch with topicSetBy := some by', topicSetTime := atol time }) s s') ↔
      IfKnown s c fun _ => (strtol time 0).1 = atol time := by
  have read : handle333 s l = changeNamed s c fun ch =>
      { ch with topicSetTime := (strtol time 0).1, topicSetBy := some by' } := by
    rw [handle333, IrcLine.argStr_eq hc, IrcLine.arg_eq hb, IrcLine.argStr_eq ht]
    rfl
  rw [read, changeNamed_iff hg]
  refine forall_congr' fun x => forall_congr' fun ch => imp_congr_right fun _ =>
    imp_congr_right fun _ => ⟨fun h => congrArg ChannelState.topicSetTime h, fun h => ?_⟩
  dsimp only at h ⊢
  rw [h]

/-- `handle_no_topic` looks for the recipient: what a 331 reply asks for is done if the two names are
of one channel, or neither is of one with a topic. -/
theorem handleNoTopic_iff (hg : Graph s) (hme : l.args[1]? = some me) :
    (∃ s', handleNoTopic s l = .ok s' ∧
        OnlyChanged c (fun ch ch' => ch' = { ch with topic := none }) s s') ↔
      findChannel s me = findChannel s c ∨
        (IfKnown s me (·.topic = none) ∧ IfKnown s c (·.topic = none)) := by
  have read : handleNoTopic s l = changeNamed s me fun ch => { ch with topic := none } := by
    rw [handleNoTopic, IrcLine.argStr_eq hme]
    rfl
  rw [read]
  rw [← withoutTopic_iff hg, ← withoutTopic_iff hg]
  by_cases same : findChannel s me = findChannel s c
  · refine iff_of_true ?_ (.inl same)
    have e : changeNamed s me (fun ch => { ch with topic := none }) =
        changeNamed s c fun ch => { ch with topic := none } := by
      rw [changeNamed, changeNamed, same]
    rw [e, changeNamed_iff hg]
    exact fun _ _ _ _ => rfl
  · rw [or_iff_right same]
    constructor
    · rintro ⟨s', hs', h⟩
      rcases findChannel_cases hg me with hno | ⟨x, ch, hx, hch⟩
      · cases (changeNamed_none hno).symm.trans hs'
        rcases findChannel_cases hg c with hno' | ⟨y, ch', hy, hch'⟩
        · exact absurd (hno.trans hno'.symm) same
        · obtain ⟨_, rfl, e⟩ := h.known y ch' hy hch'
          exact ⟨changeNamed_none hno, (changeNamed_some hy hch').trans (congrArg Except.ok e.symm)⟩
      · rw [changeNamed_some hx hch] at hs' ⊢
        rcases findChannel_cases hg c with hno' | ⟨y, ch', hy, hch'⟩
        · cases h.unknown hno'
          exact ⟨hs', changeNamed_none hno'⟩
        · obtain ⟨_, rfl, e⟩ := h.known y ch' hy hch'
          have other : x ≠ y := by
            rintro rfl
            exact same (hx.trans hy.symm)
          rw [changeNamed_some hy hch']
          have both := congrArg NetworkState.chanHeap ((Except.ok.inj hs').trans e)
          simp only [NetworkState.setChan_chanHeap] at both
          have atX := congrFun both x
          have atY := congrFun both y
          rw [Heap.set_same, Heap.set_other other, hch] at atX
          rw [Heap.set_same, Heap.set_other other.symm, hch'] at atY
          rw [Option.some.inj atX, ← Option.some.inj atY, setChan_self hch, setChan_self hch']
          exact ⟨rfl, rfl⟩
    · rintro ⟨hme, hc⟩
      refine ⟨s, hme, fun y ch' hy hch' => ⟨_, rfl, ?_⟩, fun _ => rfl⟩
      exact Except.ok.inj (hc.symm.trans (changeNamed_some hy hch'))

/-- What a 324 reply asks for is done if it can be read and is not the first one. -/
theorem handle324_iff (hg : Graph s) {w : Str} (hc : l.args[2]? = some c) (hw : l.args[3]? = some w) :
    (∃ s', handle324 s l = .ok s' ∧ OnlyChanged c (fun ch ch' =>
        ∃ modes, ListedBy w modes ∧ ch' = { ch with modes := modes }) s s') ↔
      IfKnown s c fun ch => ¬ SignedFF w ∧ ch.modeReceived = true := by
  by_cases hFF : SignedFF w
  · rcases findChannel_cases hg c with hno | ⟨x, ch, hx, hch⟩
    · refine iff_of_true ⟨s, ?_, fun x ch hx => ?_, fun _ => rfl⟩ (ifKnown_none hno)
      · rw [handle324, IrcLine.argStr_eq hc, ok_bind, hno, ok_bind, pure_eq_ok]
      · cases hno.symm.trans hx
    · rw [ifKnown_some hx hch]
      refine iff_of_false ?_ fun h => h.1 hFF
      rintro ⟨s', hs', -⟩
      rw [handle324, IrcLine.argStr_eq hc, ok_bind, hx, ok_bind] at hs'
      dsimp only at hs'
      rw [IrcLine.argStr_eq hw, ok_bind] at hs'
      obtain ⟨r, hr, -⟩ := bind_eq_ok hs'
      exact string2mode_noFF hr hFF
  · obtain ⟨r, hr, hlisted⟩ := string2mode_listed hFF
    have read : handle324 s l =
        changeNamed s c fun ch => { ch with modes := r.1, modeReceived := true } := by
      rw [handle324, IrcLine.argStr_eq hc, IrcLine.argStr_eq hw]
      simp only [ok_bind, hr]
      rfl
    rw [read, changeNamed_iff hg]
    refine forall_congr' fun x => forall_congr' fun ch => imp_congr_right fun _ =>
      imp_congr_right fun _ => ?_
    constructor
    · rintro ⟨modes, -, e⟩
      exact ⟨hFF, (congrArg ChannelState.modeReceived e).symm⟩
    · rintro ⟨-, hreceived⟩
      exact ⟨r.1, hlisted, by rw [← hreceived]⟩

/-- `handle_umodeis` reads the name of the recipient. -/
theorem handleUmodeis_iff (hg : Graph s) {w : Str} (hme : l.args[1]? = some me) :
    (∃ s', handleUmodeis s l = .ok s' ∧ (TargetReply.userModes w).Obeyed s s') ↔
      ¬ SignedFF me ∧ ∀ m, Lists me m ↔ Lists w m := by
  obtain ⟨n, hn, -⟩ := hg.nick_live meRef (.inl rfl)
  have read {r : Modes × Bool} (hr : string2mode (some me) = .ok r) :
      handleUmodeis s l = .ok (s.setNick meRef { n with modes := r.1 }) := by
    rw [handleUmodeis, IrcLine.argStr_eq hme, ok_bind, hr, ok_bind]
    dsimp only
    rw [NetworkState.modifyNick, NetworkState.nick_eq hn, ok_bind, pure_eq_ok]
  constructor
  · rintro ⟨s', hs', n', modes, hn', hlisted, rfl⟩
    cases hn.symm.trans hn'
    have hFF : ¬ SignedFF me := by
      rw [handleUmodeis, IrcLine.argStr_eq hme, ok_bind] at hs'
      obtain ⟨r, hr, -⟩ := bind_eq_ok hs'
      exact string2mode_noFF hr
    obtain ⟨r, hr, hlisted'⟩ := string2mode_listed hFF
    have e := congrFun (congrArg NetworkState.nickHeap (Except.ok.inj ((read hr).symm.trans hs'))) meRef
    rw [NetworkState.setNick_nickHeap, NetworkState.setNick_nickHeap, Heap.set_same, Heap.set_same] at e
    have same : r.1 = modes := congrArg NetworkNick.modes (Option.some.inj e)
    exact ⟨hFF, hlisted'.same (same ▸ hlisted)⟩
  · rintro ⟨hFF, same⟩
    obtain ⟨r, hr, hlisted⟩ := string2mode_listed hFF
    exact ⟨_, read hr, n, r.1, hn, hlisted.congr same, rfl⟩

end

/-! ### Replies -/

section
variable {s : NetworkState} {me : Str}

/-- A reply of each kind selects the handler of its numeric. -/
def TargetReply.command : TargetReply → Command
  | channel _ (.noTopic _) => .noTopic
  | channel _ (.topic _) => .c332
  | channel _ (.topicSetter _ _) => .c333
  | channel _ (.modes _ _) => .c324
  | channel _ (.created _) => .c329
  | userModes _ => .umodeis

theorem TargetReply.commandOf_eq (r : TargetReply) (origin : Option Str) (colon : HasEndcolon) :
    commandOf ⟨origin, r.args me, colon⟩ = some r.command := by
  have known {cmd : Str} {as : List Str} {n : ℕ} {k : Command}
      (hfind : (ircCommands.find? fun e => baseEq (some cmd) e.1) = some (cmd, n, k))
      (hn : n ≤ as.length) : commandOf ⟨origin, cmd :: as, colon⟩ = some k :=
    commandOf_known rfl hfind hn
  cases r with
  | channel c r =>
      cases r with
      | noTopic text => exact known (k := .noTopic) (n := 1) (by decide) (Nat.le_add_left 1 2)
      | topic w => exact known (k := .c332) (n := 3) (by decide) le_rfl
      | topicSetter by' time =>
          exact known (k := .c333) (n := 3) (by decide) (Nat.le_add_left 3 1)
      | modes w params =>
          exact known (k := .c324) (n := 3) (by decide) (Nat.le_add_left 3 params.length)
      | created time => exact known (k := .c329) (n := 3) (by decide) le_rfl
  | userModes w => exact known (k := .umodeis) (n := 1) (by decide) (Nat.le_add_left 1 1)

theorem Graph.obeyed_iff (hg : Graph s) (r : TargetReply) (now : Long) (origin : Option Str)
    (colon : HasEndcolon) :
    (∃ s', stateStep s (now, ⟨origin, r.args me, colon⟩) = .ok s' ∧ r.Obeyed s s') ↔ r.Met s me := by
  rw [stateStep_handler (i := (now, ⟨origin, r.args me, colon⟩)) (r.commandOf_eq origin colon)]
  cases r with
  | channel c r =>
      cases r with
      | noTopic text => exact handleNoTopic_iff hg rfl
      | topic w => exact iff_of_true (handle332_onlyChanged hg rfl rfl) trivial
      | topicSetter by' time => exact handle333_iff hg rfl rfl rfl
      | modes w params => exact handle324_iff hg rfl rfl
      | created time => exact iff_of_true (handle329_onlyChanged hg rfl rfl) trivial
  | userModes w => exact handleUmodeis_iff hg rfl

/-- **When a numeric reply does what it asks for, and nothing else**, in any reachable state and
whatever name it is sent to: 332 and 329 always; a 333 if its time reads the same in base 0; a 324 if
it can be read and is not the first one; 333 and 324 also about an unknown channel; a 331 if the
recipient is another name of the channel, or neither names a channel with a topic; a 221 if the
recipient's name lists the same modes. -/
theorem targetReply_obeyed_iff {nick username hostname : Str}
    (h : Reach stateStep (fun _ _ => True) (networkStateInit nick username hostname) s)
    (r : TargetReply) (now : Long) (origin : Option Str) (colon : HasEndcolon) :
    (∃ s', stateStep s (now, ⟨origin, r.args me, colon⟩) = .ok s' ∧ r.Obeyed s s') ↔ r.Met s me :=
  (reach_graph h).obeyed_iff r now origin colon

end

/-- The user joins a channel and is told its topic. -/
def topicTold : Except Fault NetworkState :=
  [meJoins, inputOf ":server 332 me #c :welcome"].foldlM stateStep
    (networkStateInit (str "me") (str "user") (str "host"))

theorem topicTold_reach {s : NetworkState} (hs : topicTold = .ok s) :
    Reach stateStep (fun _ _ => True) (networkStateInit (str "me") (str "user") (str "host")) s := by
  rw [topicTold, List.foldlM_cons] at hs
  obtain ⟨s₁, hs₁, hs⟩ := bind_eq_ok hs
  rw [List.foldlM_cons] at hs
  obtain ⟨s₂, hs₂, hs⟩ := bind_eq_ok hs
  cases hs
  exact .step (.step .refl trivial hs₁) trivial hs₂

/-- A channel gets another topic. -/
theorem reply_obeyed_332 : ∃ s s', topicTold = .ok s ∧
    stateStep s (long0, ⟨none, [str "332", str "me", str "#c", str "bye"], .withColon⟩) = .ok s' ∧
      (TargetReply.channel (str "#c") (.topic (str "bye"))).Obeyed s s' := by
  have run : topicTold.map (fun _ => ()) = .ok () := by decide +kernel
  obtain ⟨s, hs, -⟩ := map_eq_ok run
  obtain ⟨s', hs', h⟩ := (targetReply_obeyed_iff (topicTold_reach hs)
    (.channel (str "#c") (.topic (str "bye"))) long0 none .withColon).mpr trivial
  exact ⟨s, s', hs, hs', h⟩

/-- The topic outlives a 331 reply, and the user's modes are not those of a 221 reply. -/
theorem recipient_taken_for_target : ∃ s,
    Reach stateStep (fun _ _ => True) (networkStateInit (str "me") (str "user") (str "host")) s ∧
    nameOf s meRef = some (str "me") ∧
    (¬ ∃ s', stateStep s (long0, ⟨none, [str "331", str "me", str "#c", str "No topic is set"],
        .withColon⟩) = .ok s' ∧
      (TargetReply.channel (str "#c") (.noTopic (str "No topic is set"))).Obeyed s s') ∧
    ¬ ∃ s', stateStep s (long0, ⟨none, [str "221", str "me", str "+i"], .withoutColon⟩) = .ok s' ∧
      (TargetReply.userModes (str "+i")).Obeyed s s' := by
  have run : (do
      let s ← topicTold
      let me ← findChannel s (str "me")
      let c ← findChannel s (str "#c")
      pure (nameOf s meRef, (s.chanHeap 1).bind ChannelState.topic, me, c)) =
      .ok (some (str "me"), some (str "welcome"), none, some 1) := by decide +kernel
  obtain ⟨s, hs, run⟩ := bind_eq_ok run
  obtain ⟨me, hme, run⟩ := bind_eq_ok run
  obtain ⟨c, hc, run⟩ := bind_eq_ok run
  simp only [pure_eq_ok, Except.ok.injEq, Prod.mk.injEq] at run
  obtain ⟨hname, htopic, rfl, rfl⟩ := run
  have reached := topicTold_reach hs
  have hg := reach_graph reached
  refine ⟨s, reached, hname, fun h => ?_, fun h => ?_⟩
  · have met := (hg.obeyed_iff (.channel (str "#c") (.noTopic (str "No topic is set"))) long0 none
      .withColon).mp h
    rcases met with same | ⟨-, hclear⟩
    · cases hme.symm.trans (same.trans hc)
    · obtain ⟨ch, hch, htopic⟩ := Option.bind_eq_some_iff.mp htopic
      rw [hclear 1 ch hc hch] at htopic
      cases htopic
  · obtain ⟨-, same⟩ := (hg.obeyed_iff (.userModes (str "+i")) long0 none .withoutColon).mp h
    have listed : Lists (str "+i") (chr 'i') :=
      ⟨.inl rfl, by decide, [chr '+'], [], rfl, List.not_mem_nil, by decide⟩
    have signed := ((same _).mpr listed).signed
    revert signed
    decide

end Ctrlproxy
