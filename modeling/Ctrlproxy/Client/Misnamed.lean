import Ctrlproxy.Client.Merge

/-!
# Client — a names list in memory

The senders write the colon in front of the names of a 353 line themselves, and hand the line to
`state_handle_data` as it is.  So the first name of a line is one with a colon in front of it, and a
channel that a client is told of has a member that nobody is called like.
-/

namespace Ctrlproxy
open Outcome

/-- A member of the channel has a name with a colon in front of it. -/
def Misnamed (s : NetworkState) (c : Ref) : Prop :=
  ∃ g a, OnChan s c g ∧ nameOf s g = some (chr ':' :: a)

/-- If a channel is found by this name then it has such a member. -/
def Broken (name : Str) (s : NetworkState) : Prop :=
  ∀ c, findChannel s name = .ok (some c) → Misnamed s c

/-! ### Channels keep their names -/

/-- The channels that were there are still called what they were. -/
structure NamesKept (s s' : NetworkState) : Prop where
  next : s.next ≤ s'.next
  kept : ∀ x ∈ s'.channels, x < s.next → x ∈ s.channels ∧ chanName s' x = chanName s x

section
variable {s s' s'' : NetworkState} {c g r : Ref} {name : Str}

theorem NamesKept.refl : NamesKept s s := ⟨le_rfl, fun _ hx _ => ⟨hx, rfl⟩⟩

theorem NamesKept.trans (h : NamesKept s s') (h' : NamesKept s' s'') : NamesKept s s'' where
  next := h.next.trans h'.next
  kept := by
    intro x hx hlt
    obtain ⟨hx', e'⟩ := h'.kept x hx (hlt.trans_le h.next)
    obtain ⟨hx'', e⟩ := h.kept x hx' hlt
    exact ⟨hx'', e'.trans e⟩

theorem NamesKept.of_eq (hn : s.next ≤ s'.next) (hcs : s'.channels = s.channels)
    (hch : s'.chanHeap = s.chanHeap) : NamesKept s s' :=
  ⟨hn, fun x hx _ => ⟨hcs ▸ hx, by rw [chanName, chanName, hch]⟩⟩

/-- A channel gets other fields than its name. -/
theorem NamesKept.of_set {ch ch' : ChannelState} (hn : s.next ≤ s'.next)
    (hcs : s'.channels = s.channels) (hset : s'.chanHeap = s.chanHeap.set r ch')
    (hch : s.chanHeap r = some ch) (hname : ch'.name = ch.name) : NamesKept s s' := by
  refine ⟨hn, fun x hx _ => ⟨hcs ▸ hx, ?_⟩⟩
  rw [chanName, chanName, hset, Heap.set_apply]
  split
  · subst_vars
    rw [hch, Option.map_some, Option.map_some, hname]
  · rfl

theorem Trim.namesKept (e : Trim s s') (hg : Graph s) : NamesKept s s' := by
  cases e with
  | query h => exact .of_eq le_rfl rfl rfl
  | unlink _ _ _ hch _ => exact .of_set le_rfl rfl rfl hch rfl
  | dropNick _ _ _ => exact .of_eq le_rfl rfl rfl
  | dropChan _ _ _ =>
      refine ⟨le_rfl, fun x hx _ => ?_⟩
      obtain ⟨hne, hx'⟩ := hg.channels_nodup.mem_erase_iff.mp hx
      exact ⟨hx', congrArg (Option.map _) (Heap.del_other hne)⟩

theorem Edit.namesKept (e : Edit s s') (hg : Graph s) : NamesKept s s' := by
  cases e with
  | quiet e =>
      cases e with
      | trim e => exact e.namesKept hg
      | nick _ _ => exact .of_eq le_rfl rfl rfl
      | chan hch hn _ _ _ => exact .of_set le_rfl rfl rfl hch hn
      | memb _ _ _ _ => exact .of_eq le_rfl rfl rfl
      | addChan name =>
          refine ⟨Nat.le_succ _, fun x hx hlt => ⟨?_, congrArg _ (Heap.set_other hlt.ne)⟩⟩
          rcases List.mem_append.mp hx with hx | hx
          · exact hx
          · exact absurd (List.mem_singleton.mp hx) hlt.ne
      | away b => exact .of_eq le_rfl rfl rfl
  | name _ _ => exact .of_eq le_rfl rfl rfl
  | addNick name => exact .of_eq (Nat.le_succ _) rfl rfl
  | addMemb _ _ hch _ _ => exact .of_set (Nat.le_succ _) rfl rfl hch rfl

theorem Edits.namesKept (e : Edits s s') (hg : Graph s) : NamesKept s s' := by
  have key : Graph s' ∧ NamesKept s s' := by
    induction e with
    | refl => exact ⟨hg, .refl⟩
    | tail _ e ih => exact ⟨e.graph ih.1, ih.2.trans (e.namesKept ih.1)⟩
  exact key.2

/-- A search for a channel finds what it found before, while the channels stay listed. -/
theorem findChannel_edits (hg : Graph s) (hinfo : s.info = networkInfoInit) (e : Edits s s')
    (hcs : s'.channels = s.channels) (name : Str) : findChannel s' name = findChannel s name := by
  have hkept := e.namesKept hg
  rw [findChannel, findChannel, hcs, findFirst_eq_find? fun c hc => chanTest hg hinfo hc name]
  refine findFirst_eq_find? fun c hc => ?_
  rw [chanTest (e.graph hg) (e.info_eq.trans hinfo) (hcs ▸ hc), chanKey,
    (hkept.kept c (hcs ▸ hc) (hg.channel_lt hc)).2, ← chanKey]

/-! ### Members with a colon -/

/-- What is the same as a name with a colon in front of it, up to case, has one too. -/
theorem fold_colon {a b : Str} (e : Casemapping.unknown.fold b =
    Casemapping.unknown.fold (chr ':' :: a)) : ∃ b', b = chr ':' :: b' := by
  cases b with
  | nil => cases e
  | cons x b =>
      rw [Casemapping.fold, Casemapping.fold, List.map_cons, List.map_cons, List.cons.injEq] at e
      have hx : Casemapping.unknown.foldByte x = chr ':' :=
        e.1.trans ((foldByte_low (by decide) _).mpr rfl)
      exact ⟨b, by rw [(foldByte_low (by decide) x).mp hx]⟩

theorem OnChan.addMemb (hg : Graph s) {g' : Ref} {ch : ChannelState} {gn : NetworkNick}
    (hch : s.chanHeap c = some ch) (md : Modes) (h : OnChan s c g) :
    OnChan (addMemb s c g' ch gn md) c g := by
  obtain ⟨ch', m, cn, hch', hm, hcn, e⟩ := h
  rw [hch] at hch'
  cases hch'
  exact ⟨_, m, cn, Heap.set_same _ _ _, List.mem_append_left _ hm,
    (Heap.set_other (hg.memb_lt hcn).ne).trans hcn, e⟩

theorem OnChan.entered (s : NetworkState) (c g : Ref) (ch : ChannelState) (gn : NetworkNick)
    (md : Modes) : OnChan (Ctrlproxy.addMemb s c g ch gn md) c g :=
  ⟨_, s.next, _, Heap.set_same _ _ _, List.mem_append_right _ (List.mem_singleton_self _),
    Heap.set_same _ _ _, rfl⟩

/-- The nick that `find_add_network_nick` returns is called like the name. -/
theorem findAddNetworkNick_name (hg : Graph s) (hinfo : s.info = networkInfoInit) (x : Str) :
    Ensures (findAddNetworkNick s x) (fun p => Graph p.2 ∧ p.2.channels = s.channels ∧
      (∀ c g, OnChan s c g → OnChan p.2 c g) ∧ (∀ g, Known s g → nameOf p.2 g = nameOf s g) ∧
      ∃ b, nameOf p.2 p.1 = some b ∧ Casemapping.unknown.fold b = Casemapping.unknown.fold x)
      (fun _ => True) := by
  refine (findNetworkNick_ensures (fun _ _ => trivial) x).with_eq.bind ?_
  rintro r ⟨hfind, -⟩
  cases r with
  | some g =>
      obtain ⟨-, htest⟩ := findFirst_some hfind
      obtain ⟨n, hn, heq⟩ := bind_eq_ok htest
      rw [hinfo] at heq
      obtain ⟨b, hb, e⟩ := ircEq_true heq
      exact ⟨hg, rfl, fun _ _ h => h, fun _ _ => rfl, b,
        (nameOf_eq (NetworkState.nick_inv hn)).trans hb, e⟩
  | none =>
      dsimp only
      split
      · trivial
      · refine ⟨hg.addNick rfl, rfl, fun _ _ h => h, fun g hk => ?_, x, ?_, rfl⟩
        · exact nameOf_congr (Heap.set_other (hg.known_lt hk).ne)
        · exact (congrArg (Option.bind · _) (Heap.set_same _ _ _)).trans rfl

/-- A name of a 353 line keeps a member with a colon, and adds one if it has a colon itself. -/
theorem addName_misnamed (hg : Graph s) (hinfo : s.info = networkInfoInit) (hc : c ∈ s.channels)
    (h : Misnamed s c ∨ ∃ a, name = chr ':' :: a) :
    Ensures (addName c s name) (fun s' => Misnamed s' c) (fun _ => True) := by
  unfold addName
  split
  · next hnil =>
    refine h.elim id ?_
    rintro ⟨a, rfl⟩
    cases hnil
  have strip : ∀ a, name = chr ':' :: a → stripPrefix (some s.info) name = name := by
    rintro a rfl
    refine stripPrefix_of_not ?_
    rw [hinfo, List.head?_cons]
    decide
  suffices hadd : Ensures (findAddChannelNick s c name) (fun p => Misnamed p.2 c) (fun _ => True) from
    hadd.bind fun p hp => hp
  unfold findAddChannelNick
  split
  · trivial
  refine (NetworkState.chan_ensures (fun _ _ => trivial) c).bind fun ch hch => ?_
  split
  · trivial
  refine (findChannelNick_ensures (fun _ _ => trivial) c _).with_eq.bind ?_
  rintro r ⟨hfind, -⟩
  cases r with
  | some m =>
      refine h.elim id ?_
      rintro ⟨a, ha⟩
      rw [strip a ha, findChannelNick_eq hg hc hch, strip a ha] at hfind
      obtain ⟨hm, htest⟩ := findFirst_some hfind
      obtain ⟨cn, gn, l, -⟩ := hg.link_of_chan hc hch hm
      rw [NetworkState.memb_eq l.memb, ok_bind, NetworkState.nick_eq l.nick, ok_bind, hinfo] at htest
      obtain ⟨b, hb, e⟩ := ircEq_true htest
      rw [ha] at e
      obtain ⟨b', rfl⟩ := fold_colon e
      exact ⟨cn.globalNick, b', ⟨ch, m, cn, hch, hm, l.memb, rfl⟩, (nameOf_eq l.nick).trans hb⟩
  | none =>
      refine (findAddNetworkNick_name hg hinfo _).bind ?_
      rintro ⟨g, s₁⟩ ⟨hg₁, hcs₁, hon₁, hname₁, b, hb, e⟩
      have modes : ∀ p, p = none ∨ p = name.head? →
          Ensures (prefixModes s₁.info p) (KeepsNul modesClear) (fun _ => True) :=
        fun p hp => prefixModes_ensures hp fun _ => trivial
      refine (modes _ (by split <;> simp)).bind fun md _ => ?_
      refine (NetworkState.chan_ensures (fun _ _ => trivial) c).bind fun ch₁ hch₁ => ?_
      refine (NetworkState.nick_ensures (fun _ _ => trivial) g).bind fun gn hgn => ?_
      have hkeep : ∀ x, nameOf (addMemb s₁ c g ch₁ gn md) x = nameOf s₁ x :=
        fun x => nameOf_keep rfl hgn (by rfl) x
      rcases h with ⟨g₀, a, hon, ha⟩ | ⟨a, ha⟩
      · exact ⟨g₀, a, (hon₁ c g₀ hon).addMemb hg₁ hch₁ md,
          (hkeep g₀).trans ((hname₁ g₀ (hon.known hg hc)).trans ha)⟩
      · rw [strip a ha, ha] at e
        obtain ⟨b', rfl⟩ := fold_colon e
        exact ⟨g, b', .entered s₁ c g ch₁ gn md, (hkeep g).trans hb⟩

/-! ### The lines -/

theorem pieces_first {b x : Byte} (hb : b ≠ x) (w : Str) : ∃ p ps, pieces x (b :: w) = (b :: p) :: ps := by
  rw [pieces, if_neg hb]
  cases pieces x w with
  | nil => exact ⟨[], [], rfl⟩
  | cons p ps => exact ⟨p, ps, rfl⟩

/-- A 353 line whose names begin with a colon. -/
theorem handleNamreply_broken (hg : Graph s) (hinfo : s.info = networkInfoInit) {l : IrcLine} {a : Str}
    (h3 : l.argStr 3 = .ok name) (h4 : l.argStr 4 = .ok (chr ':' :: a)) :
    Ensures (handleNamreply s l) (Broken name) (fun _ => True) := by
  rw [handleNamreply, h3, ok_bind]
  refine (findChannel_ensures (fun _ _ => trivial) name).with_eq.bind ?_
  rintro r ⟨hfind, hr⟩
  cases r with
  | none =>
      intro c hc
      rw [hfind] at hc
      cases hc
  | some c =>
      have hc := hr c rfl
      obtain ⟨p, ps, hp⟩ := pieces_first (x := chr ' ') (b := chr ':') (by decide) a
      dsimp only
      rw [h4, ok_bind, gStrsplit, if_neg (List.cons_ne_nil _ _), hp]
      refine (IrcLine.argStr_ensures (fun _ _ => trivial) 2).bind fun mode _ => ?_
      have hmode : KeepsChannel fun ch => { ch with mode := mode.head? } :=
        ⟨fun _ => rfl, fun _ => rfl, fun _ => rfl, fun _ => KeepsNul.refl _⟩
      refine (modifyChan_silent (fun _ _ => trivial) c hmode).bind ?_
      rintro s₁ ⟨e₁, hcs₁⟩
      refine (restartNames_silent (fun _ _ => trivial) (e₁.graph hg) (hcs₁ ▸ hc)).bind ?_
      rintro s₂ ⟨e₂, hcs₂⟩
      have e₁₂ := (e₁.trans e₂).edits
      have hcs := hcs₂.trans hcs₁
      -- one name: the channels stay listed
      have one : ∀ {s'} {n : Str}, Edits s s' → s'.channels = s.channels →
          (Misnamed s' c ∨ ∃ a, n = chr ':' :: a) → Ensures (addName c s' n)
            (fun s'' => (Edits s s'' ∧ s''.channels = s.channels) ∧ Misnamed s'' c)
            (fun _ => True) := by
        intro s' n e hcs' hn
        have hg' := e.graph hg
        have hedits : Ensures (addName c s' n)
            (fun s'' => Edits s s'' ∧ s''.channels = s.channels) (fun _ => True) := by
          unfold addName
          split
          · exact ⟨e, hcs'⟩
          refine (findAddChannelNick_edits (fun _ _ => trivial) hg' (hcs'.symm ▸ hc)
            (fun _ => trivial)).bind ?_
          rintro ⟨m, s''⟩ ⟨e', hcs'', -⟩
          exact ⟨e.trans e', hcs''.trans hcs'⟩
        exact (hedits.and (addName_misnamed hg' (e.info_eq.trans hinfo) (hcs'.symm ▸ hc) hn)).mono
          (fun _ h => h) fun _ _ => trivial
      rw [List.foldlM_cons]
      refine (one e₁₂ hcs (.inr ⟨p, rfl⟩)).bind ?_
      rintro s₃ ⟨⟨e₃, hcs₃⟩, h₃⟩
      refine (Ensures.foldlM (I := fun s' => (Edits s s' ∧ s'.channels = s.channels) ∧ Misnamed s' c)
        (fun s' n _ hs' => one hs'.1.1 hs'.1.2 (.inl hs'.2)) ⟨⟨e₃, hcs₃⟩, h₃⟩).imp ?_
      rintro s' ⟨⟨e', hcs'⟩, h'⟩ c' hc'
      rw [findChannel_edits hg hinfo e' hcs', hfind] at hc'
      cases hc'
      exact h'

/-- The end of the names of a channel. -/
theorem handleEndNames_broken (hg : Graph s) (hinfo : s.info = networkInfoInit) {l : IrcLine}
    (h : Broken name s) : Ensures (handleEndNames s l) (Broken name) (fun _ => True) := by
  refine (IrcLine.argStr_ensures (fun _ _ => trivial) 2).bind fun x _ => ?_
  refine (findChannel_ensures (fun _ _ => trivial) x).bind fun r _ => ?_
  cases r with
  | none => exact h
  | some r =>
      refine (NetworkState.modifyChan_ensures (fun _ _ => trivial) r _).imp ?_
      rintro _ ⟨ch, hch, rfl⟩ c hc
      have e : Edits s (s.setChan r { ch with namreplyStarted := false }) :=
        .single (.quiet (.chan hch rfl rfl rfl (KeepsNul.refl _)))
      rw [findChannel_edits hg hinfo e rfl] at hc
      obtain ⟨g, a, hon, ha⟩ := h c hc
      exact ⟨g, a, (OnChan.setChan hch { ch with namreplyStarted := false } rfl).mpr hon, ha⟩

end

/-! ### Telling a channel -/

/-- What holds of the state after any lines that announce nothing. -/
def Sound (s : NetworkState) : Prop := Graph s ∧ s.info = networkInfoInit

/-- The lines of this command announce nothing, and are handled as they are sent. -/
def Unannounced (cmd : Str) : Prop :=
  (ircCommands.find? fun e => baseEq (some cmd) e.1).map (·.2.2) ∉ [some .c302, some .c004, some .c005]

instance (cmd : Str) : Decidable (Unannounced cmd) := inferInstanceAs (Decidable (_ ∉ _))

section
variable {origin : Option Str} {old src new : NetworkState} {n : ℕ} {P P' : NetworkState → Prop}
  {cl : Client} {now : Long} {l : IrcLine} {ch : ChannelState} {r : Ref}

theorem Unannounced.commandOf_ne {cmd : Str} {as : List Str} (h : Unannounced cmd) (hl : l.args = cmd :: as) :
    ∀ k ∈ [Command.c302, .c004, .c005], commandOf l ≠ some k := by
  intro k hk e
  refine h ?_
  rw [Option.mem_def.mp (commandOf_mem hl k e)]
  exact List.mem_map_of_mem (f := some) hk

/-- Any line that announces nothing is sent. -/
theorem Following.unannounced (h : Following origin old n P cl) (hP : ∀ O, P O → Sound O) {cmd : Str}
    {as : List Str} (hl : l.args = cmd :: as) (hcmd : Unannounced cmd)
    (hO : ∀ O, P O → Ensures (stateStep O (now, l)) P' (fun _ => True)) :
    Ensures (clientSendLine now cl l)
      (fun r => r.1 = true ∧ Following origin old n (fun O => Sound O ∧ P' O) r.2) (fun _ => True) := by
  have hne := hcmd.commandOf_ne hl
  suffices step : ∀ O, P O → Ensures (stateStep O (now, l)) (fun O => Sound O ∧ P' O) (fun _ => True) from
    (h.send (hne _ (by simp)) step).imp fun r hr => ⟨hr.1, hr.2.imp n.le_succ fun _ h => h⟩
  intro O hOP
  obtain ⟨hg, hinfo⟩ := hP O hOP
  refine ((stateStep_step hg (now, l)).with_eq.and (hO O hOP)).mono ?_ fun _ _ => trivial
  rintro O' ⟨⟨heq, hs⟩, hP'⟩
  exact ⟨⟨hs.graph hg, (stateStep_info hg (hne _ (by simp)) (hne _ (by simp)) heq).trans hinfo⟩, hP'⟩

/-- Any line that announces nothing, of which nothing is said. -/
theorem Following.tell (h : Following origin old n Sound cl) {cmd : Str} {as : List Str}
    (hl : l.args = cmd :: as) (hcmd : Unannounced cmd) : Ensures (clientSendLine now cl l)
      (fun r => r.1 = true ∧ Following origin old n Sound r.2) (fun _ => True) := by
  have any : ∀ O, Sound O → Ensures (stateStep O (now, l)) (fun _ => True) (fun _ => True) :=
    fun O _ => by cases stateStep O (now, l) <;> trivial
  exact (h.unannounced (fun _ h => h) hl hcmd any).imp fun r hr => ⟨hr.1, hr.2.imp le_rfl fun _ h => h.1⟩

/-- A 353 line of a channel of this name whose names begin with a colon. -/
def NamesLineOf (name : Str) (l : IrcLine) : Prop :=
  ∃ target mode a rest, l.args = str "353" :: target :: mode :: name :: (chr ':' :: a) :: rest

theorem NamesLineOf.send {name : Str} (hl : NamesLineOf name l) (h : Following origin old n Sound cl) :
    Ensures (clientSendLine now cl l) (fun r => r.1 = true ∧
      Following origin old n (fun O => Sound O ∧ Broken name O) r.2) (fun _ => True) := by
  obtain ⟨target, mode, a, rest, hargs⟩ := hl
  refine h.unannounced (fun _ h => h) hargs (by decide) fun O hO => ?_
  have hk : commandOf l = some .namreply := commandOf_known (n := 4) hargs rfl (by simp)
  have harg : ∀ i x, l.args[i]? = some x → l.argStr i = .ok x := by
    intro i x hx
    have hi : i ≤ l.argc := (List.getElem?_eq_some_iff.mp hx).1.le
    rw [IrcLine.argStr, if_pos hi, hx]
  rw [stateStep_handler hk]
  exact handleNamreply_broken hO.1 hO.2 (harg 3 name (by rw [hargs]; rfl))
    (harg 4 (chr ':' :: a) (by rw [hargs]; rfl))

/-- What fits into a line goes behind what is there. -/
theorem lineAddArg_args {l' : IrcLine} {arg : Str} (h : lineAddArg l arg = some l') :
    l'.args = l.args ++ [arg] := by
  unfold lineAddArg at h
  split at h
  · cases h
  · cases h
    rfl

/-- The line being filled, or the client as it is. -/
theorem flushLine_sound {lo : Option IrcLine} {name : Str} (hlo : ∀ l ∈ lo, NamesLineOf name l)
    (h : Following origin old n Sound cl) : Ensures (flushLine now cl lo)
      (fun r => r.1 = true ∧ Following origin old n Sound r.2) (fun _ => True) := by
  cases lo with
  | none => exact ⟨rfl, h⟩
  | some l =>
      exact ((hlo l rfl).send h).imp fun r hr => ⟨hr.1, hr.2.imp le_rfl fun _ h => h.1⟩

/-- The names of a channel, if there are any, leave it with a member with a colon. -/
theorem namesLoop_broken {ms : List Ref} {lo : Option IrcLine}
    (hlo : ∀ l ∈ lo, NamesLineOf ch.name l) (hne : ms ≠ [] ∨ lo ≠ none)
    (h : Following origin old n Sound cl) : Ensures (namesLoop now src ch ms lo cl)
      (fun r => r.1 = true ∧ Following origin old n (fun O => Sound O ∧ Broken ch.name O) r.2)
      (fun _ => True) := by
  induction ms generalizing lo cl with
  | nil =>
      cases lo with
      | none => exact absurd rfl (hne.resolve_left (not_not_intro rfl))
      | some l => exact (hlo l rfl).send h
  | cons m ms ih =>
      rw [namesLoop]
      refine Ensures.bind (Q := fun _ => True) (by cases memberArg src cl m <;> trivial) fun arg _ => ?_
      refine Ensures.bind (Q := fun l' => ∀ l ∈ l', NamesLineOf ch.name l) ?_ fun l' hl' => ?_
      · -- what is added goes behind the names that are there
        cases lo with
        | none =>
            intro l hl
            cases hl
        | some l =>
            cases arg with
            | none => trivial
            | some arg =>
                intro l' hl'
                obtain ⟨target, mode, a, rest, hargs⟩ := hlo l rfl
                refine ⟨target, mode, a, rest ++ [arg], ?_⟩
                rw [lineAddArg_args hl', hargs]
                rfl
      cases l' with
      | some l => exact ih hl' (.inr (Option.some_ne_none _)) h
      | none =>
          refine (flushLine_sound hlo h).bind fun r hr => ?_
          refine Ensures.bind (Q := NamesLineOf ch.name) ?_ fun l hl => ?_
          · unfold newNamesLine
            refine Ensures.bind (Q := fun _ => True)
              (by cases clientGetDefaultTarget r.2 <;> trivial) fun target _ => ?_
            cases hadd : lineAddArg (namesHead r.2.defaultOrigin target ch) (chr ':' :: printS arg) with
            | none => trivial
            | some l => exact ⟨target, ch.mode.toList, printS arg, [], lineAddArg_args hadd⟩
          · rw [andThen, if_pos hr.1]
            refine ih (fun l' hl' => ?_) (.inr (Option.some_ne_none _)) hr.2
            cases hl'
            exact hl

/-- A response that announces nothing is sent. -/
theorem Following.response {P : NetworkState → Prop} (h : Following origin old n P cl)
    (hP : ∀ O, P O → Sound O) {k : ℕ} (hk : k ≠ 0) (hcmd : Unannounced (responseStr k))
    {ap : List (Option Str)}
    (hO : ∀ O l, P O → l.args.head? = some (responseStr k) →
      Ensures (stateStep O (now, l)) P' (fun _ => True)) :
    Ensures (clientSendResponse now cl k ap)
      (fun r => r.1 = true ∧ Following origin old n (fun O => Sound O ∧ P' O) r.2) (fun _ => True) := by
  rw [clientSendResponse, if_neg hk]
  refine Ensures.bind (Q := fun _ => True) (by cases clientGetDefaultTarget cl <;> trivial)
    fun target _ => ?_
  exact h.unannounced hP rfl hcmd fun O hOP => hO O _ hOP rfl

theorem Following.tellResponse (h : Following origin old n Sound cl) {k : ℕ} (hk : k ≠ 0)
    (hcmd : Unannounced (responseStr k)) {ap : List (Option Str)} : Ensures (clientSendResponse now cl k ap)
      (fun r => r.1 = true ∧ Following origin old n Sound r.2) (fun _ => True) := by
  have any : ∀ O l, Sound O → l.args.head? = some (responseStr k) →
      Ensures (stateStep O (now, l)) (fun _ => True) (fun _ => True) :=
    fun O l _ _ => by cases stateStep O (now, l) <;> trivial
  exact (h.response (fun _ h => h) hk hcmd any).imp fun r hr =>
    ⟨hr.1, hr.2.imp le_rfl fun _ h => h.1⟩

theorem clientSendTopic_sound (h : Following origin old n Sound cl) :
    Ensures (clientSendTopic now cl src r false)
      (fun r => r.1 = true ∧ Following origin old n Sound r.2) (fun _ => True) := by
  refine (NetworkState.chan_ensures (fun _ _ => trivial) r).bind fun ch _ => ?_
  refine andThen_bind (P := Following origin old n Sound) ?_ fun cl h => ?_
  · unfold sendTopicText
    split
    · exact h.tellResponse (by decide) (by decide)
    · exact ⟨rfl, h⟩
  · unfold sendTopicSetter
    split
    · exact h.tellResponse (by decide) (by decide)
    · exact ⟨rfl, h⟩

/-- **A channel that a client is told of** has members, and is left with one whose name has a colon
in front of it. -/
theorem clientSendChannelState_broken (hch : src.chanHeap r = some ch) (hne : ch.nicks ≠ [])
    (h : Following origin old n Sound cl) : Ensures (clientSendChannelState now cl src r)
      (fun r => r.1 = true ∧ Following origin old n (fun O => Sound O ∧ Broken ch.name O) r.2)
      (fun _ => True) := by
  rw [clientSendChannelState, NetworkState.chan_eq hch, ok_bind]
  refine Ensures.bind (Q := fun _ => True) (by cases clientGetOwnHostmask cl <;> trivial)
    fun hm _ => ?_
  refine andThen_bind (h.tell rfl (by decide)) fun cl₁ h₁ => ?_
  refine andThen_bind (clientSendTopic_sound h₁) fun cl₂ h₂ => ?_
  rw [clientSendNameslist, NetworkState.chan_eq hch, ok_bind]
  have names : ∀ l ∈ (none : Option IrcLine), NamesLineOf ch.name l := fun l hl => by cases hl
  refine andThen_bind (namesLoop_broken names (.inl hne) h₂) fun cl₃ h₃ => ?_
  refine h₃.response (fun _ h => h.1) (by decide) (by decide) fun O l hO hl => ?_
  obtain ⟨cmd, as, hargs⟩ : ∃ cmd as, l.args = cmd :: as := by
    cases hx : l.args with
    | nil => rw [hx] at hl; cases hl
    | cons cmd as => exact ⟨cmd, as, rfl⟩
  cases hc : commandOf l with
  | none => exact ensures_of_eq_ok (stateStep_none hc) hO.2
  | some k =>
      have hk := commandOf_mem hargs k hc
      rw [hargs, List.head?_cons, Option.some_inj] at hl
      subst hl
      have hend : k = .endNames := Option.some.inj (Option.mem_def.mp hk).symm
      subst hend
      rw [stateStep_handler hc]
      exact handleEndNames_broken hO.1.1 hO.1.2 hO.2

end

end Ctrlproxy
