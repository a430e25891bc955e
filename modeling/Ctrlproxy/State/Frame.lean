import Ctrlproxy.State.Steps

/-!
# State — what a line leaves of the channels

`ChansKept π new s s'`: as far as `π` reads a channel, every channel of `s'` is what it was in `s`, or it
is new.  One lemma per function of the state machine: whatever the state, a function that returns
keeps the channels as far as `π` does not read the fields it sets.  Members come and go in many of
them, so `π` must not read the members (`ChanReading`).

What is left are the handlers of the lines about masks and modes, which are there to change what
they change.
-/

namespace Ctrlproxy
open Outcome

variable {α : Type} {π : ChannelState → α} {new : α}

/-- A way to read a channel that does not look at its members, and what it reads of a new one. -/
structure ChanReading (π : ChannelState → α) (new : α) : Prop where
  nicks : ∀ ch ns, π { ch with nicks := ns } = π ch
  fresh : ∀ name, π { ircChannelStateNew name with network := true } = new

/-- Every channel reads as it did, or it is new. -/
structure ChansKept (π : ChannelState → α) (new : α) (s s' : NetworkState) : Prop where
  next : s.next ≤ s'.next
  chan : ∀ r ch', s'.chanHeap r = some ch' →
    (∃ ch, s.chanHeap r = some ch ∧ π ch' = π ch) ∨ (s.next ≤ r ∧ π ch' = new)

/-- The channels are not touched. -/
structure ChansSame (s s' : NetworkState) : Prop where
  next : s.next ≤ s'.next
  chanHeap : s'.chanHeap = s.chanHeap

theorem ChansSame.kept {s s' : NetworkState} (h : ChansSame s s') : ChansKept π new s s' :=
  ⟨h.next, fun _ ch' hr => .inl ⟨ch', h.chanHeap ▸ hr, rfl⟩⟩

namespace ChansKept

variable {s s' s'' : NetworkState}

theorem refl (s : NetworkState) : ChansKept π new s s :=
  ⟨le_rfl, fun _ ch' h => .inl ⟨ch', h, rfl⟩⟩

theorem trans (h : ChansKept π new s s') (h' : ChansKept π new s' s'') : ChansKept π new s s'' where
  next := h.next.trans h'.next
  chan := by
    intro r ch'' hr
    rcases h'.chan r ch'' hr with ⟨ch', hch', e'⟩ | ⟨hle, e'⟩
    · rcases h.chan r ch' hch' with ⟨ch, hch, e⟩ | ⟨hle, e⟩
      · exact .inl ⟨ch, hch, e'.trans e⟩
      · exact .inr ⟨hle, e'.trans e⟩
    · exact .inr ⟨h.next.trans hle, e'⟩

/-- One channel is replaced by one that reads the same. -/
theorem of_set {r : Ref} {ch ch' : ChannelState} (hn : s.next ≤ s'.next)
    (hset : s'.chanHeap = s.chanHeap.set r ch') (hch : s.chanHeap r = some ch)
    (hπ : π ch' = π ch) : ChansKept π new s s' := by
  refine ⟨hn, fun x c hx => ?_⟩
  rw [hset, Heap.set_apply] at hx
  split at hx
  · next hxr =>
    cases hx
    exact .inl ⟨ch, hxr ▸ hch, hπ⟩
  · exact .inl ⟨c, hx, rfl⟩

/-- A channel is freed. -/
theorem of_del {r : Ref} (hn : s.next ≤ s'.next) (hdel : s'.chanHeap = s.chanHeap.del r) :
    ChansKept π new s s' :=
  ⟨hn, fun _ c hx => .inl ⟨c, Heap.of_del (hdel ▸ hx), rfl⟩⟩

end ChansKept

section
variable {s : NetworkState} {l : IrcLine}

/-- The faults are left open. -/
theorem open_faults : ∀ e : Fault, e ≠ .modeIndex → True := fun _ _ => trivial

/-! ### Destructors -/

theorem whileFree_keeps {I : NetworkState → Prop} {list : NetworkState → Except Fault (List Ref)}
    {free : NetworkState → Ref → Except Fault NetworkState}
    (hfree : ∀ s r, I s → Ensures (free s r) I fun _ => True) (k : ℕ) (hs : I s) :
    Ensures (whileFree list free k s) I fun _ => True := by
  induction k generalizing s with
  | zero =>
      unfold whileFree
      refine Ensures.bind (Q := fun _ => True) (by cases list s <;> trivial) fun l _ => ?_
      split
      · exact hs
      · trivial
  | succ k ih =>
      unfold whileFree
      refine Ensures.bind (Q := fun _ => True) (by cases list s <;> trivial) fun l _ => ?_
      cases l with
      | nil => exact hs
      | cons r l => exact (hfree s r hs).bind fun s' hs' => ih hs'

theorem freeNetworkNickBody_kept {free : NetworkState → Ref → Except Fault NetworkState}
    (hfree : ∀ s r, Ensures (free s r) (ChansKept π new s) fun _ => True) (st : Bool)
    (s : NetworkState) (nn : Ref) :
    Ensures (freeNetworkNickBody free st s nn) (ChansKept π new s) fun _ => True := by
  unfold freeNetworkNickBody
  split
  · trivial
  refine (NetworkState.nick_ensures open_faults nn).bind fun n _ => ?_
  have h₀ : ChansKept π new s (s.setNick nn { n with query := true }) :=
    ChansSame.kept ⟨le_rfl, rfl⟩
  refine (whileFree_keeps (I := ChansKept π new s)
    (fun s' r hs' => (hfree s' r).imp fun _ => hs'.trans) _ h₀).bind fun s' hs' => ?_
  have drop : ∀ t : NetworkState, t.chanHeap = s'.chanHeap → t.next = s'.next →
      ChansKept π new s { t with nickHeap := t.nickHeap.del nn } := fun t hch hn =>
    hs'.trans (ChansSame.kept ⟨hn.ge, hch⟩)
  split
  · exact drop _ rfl rfl
  · exact drop _ rfl rfl

theorem freeChannelNickBody_kept (hπ : ChanReading π new)
    {freeNick : Bool → NetworkState → Ref → Except Fault NetworkState}
    (hfree : ∀ st s r, Ensures (freeNick st s r) (ChansKept π new s) fun _ => True) (s : NetworkState)
    (n : Ref) : Ensures (freeChannelNickBody freeNick s n) (ChansKept π new s) fun _ => True := by
  unfold freeChannelNickBody
  refine (NetworkState.memb_ensures open_faults n).bind fun cn _ => ?_
  refine (NetworkState.chan_ensures open_faults _).bind fun ch hch => ?_
  refine (NetworkState.nick_ensures open_faults _).bind fun gn _ => ?_
  have h₁ : ChansKept π new s ((s.setChan cn.channel { ch with nicks := ch.nicks.erase n }).setNick
      cn.globalNick { gn with channelNicks := gn.channelNicks.erase n }) :=
    .of_set le_rfl rfl hch (hπ.nicks _ _)
  refine Ensures.bind (Q := ChansKept π new s) ?_ fun s₂ h₂ =>
    h₂.trans (ChansSame.kept ⟨le_rfl, rfl⟩)
  unfold freeUnused
  split
  · exact (hfree _ _ _).imp fun _ => h₁.trans
  · exact h₁

theorem freeChannelNickDepth_kept (hπ : ChanReading π new) (d : ℕ) (s : NetworkState) (n : Ref) :
    Ensures (freeChannelNickDepth d s n) (ChansKept π new s) fun _ => True := by
  induction d generalizing s n with
  | zero => trivial
  | succ d ih =>
      exact freeChannelNickBody_kept hπ (fun st s r => freeNetworkNickBody_kept ih st s r) s n

theorem freeChannelNick_kept (hπ : ChanReading π new) (s : NetworkState) (n : Ref) :
    Ensures (freeChannelNick s n) (ChansKept π new s) fun _ => True :=
  freeChannelNickDepth_kept hπ 2 s n

theorem freeNetworkNick_kept (hπ : ChanReading π new) (s : NetworkState) (nn : Ref) :
    Ensures (freeNetworkNick s nn) (ChansKept π new s) fun _ => True :=
  freeNetworkNickBody_kept (freeChannelNick_kept hπ) true s nn

/-- A field of a channel that is not read is set. -/
theorem modifyChan_kept {f : ChannelState → ChannelState} (hf : ∀ ch, π (f ch) = π ch) (c : Ref) :
    Ensures (s.modifyChan c f) (ChansKept π new s) fun _ => True := by
  refine (NetworkState.modifyChan_ensures open_faults c f).imp ?_
  rintro _ ⟨ch, hch, rfl⟩
  exact .of_set le_rfl rfl hch (hf ch)

theorem modifyNick_chans {f : NetworkNick → NetworkNick} (g : Ref) :
    Ensures (s.modifyNick g f) (ChansSame s) fun _ => True := by
  refine (NetworkState.modifyNick_ensures open_faults g f).imp ?_
  rintro _ ⟨n, _, rfl⟩
  exact ⟨le_rfl, rfl⟩

theorem freeNames_kept (hπ : ChanReading π new) (c : Ref) :
    Ensures (freeNames s c) (ChansKept π new s) fun _ => True := by
  unfold freeNames
  refine (NetworkState.chan_ensures open_faults c).bind fun ch _ => ?_
  refine (whileFree_keeps (I := ChansKept π new s)
    (fun s' r hs' => (freeChannelNick_kept hπ s' r).imp fun _ => hs'.trans) _ (.refl s)).bind ?_
  exact fun s' hs' => (modifyChan_kept (fun ch => hπ.nicks ch []) c).imp fun _ => hs'.trans

theorem freeChannelState_kept (hπ : ChanReading π new) (c : Ref) :
    Ensures (freeChannelState s c) (ChansKept π new s) fun _ => True := by
  unfold freeChannelState
  refine (freeNames_kept hπ c).bind fun s₁ h₁ => ?_
  refine (NetworkState.chan_ensures open_faults c).bind fun ch _ => ?_
  refine h₁.trans ?_
  split
  · exact .of_del le_rfl rfl
  · exact .of_del le_rfl rfl

/-! ### Searches that create -/

theorem findAddChannel_kept (hπ : ChanReading π new) (name : Str) :
    Ensures (findAddChannel s name) (fun r => ChansKept π new s r.2) fun _ => True := by
  refine (findChannel_ensures open_faults name).bind fun r _ => ?_
  cases r with
  | some c => exact .refl s
  | none =>
      refine ⟨Nat.le_succ _, fun x c hx => ?_⟩
      have hx' : (s.chanHeap.set s.next { ircChannelStateNew name with network := true }) x =
        some c := hx
      rw [Heap.set_apply] at hx'
      split at hx'
      · next e =>
        cases hx'
        exact .inr ⟨e.ge, hπ.fresh name⟩
      · exact .inl ⟨c, hx', rfl⟩

theorem findAddNetworkNick_chans (name : Str) :
    Ensures (findAddNetworkNick s name) (fun r => ChansSame s r.2) fun _ => True := by
  refine (findNetworkNick_ensures open_faults name).bind fun r _ => ?_
  cases r with
  | some g => exact ⟨le_rfl, rfl⟩
  | none =>
      dsimp only
      split
      · trivial
      · exact ⟨Nat.le_succ _, rfl⟩

theorem findAddChannelNick_kept (hπ : ChanReading π new) (c : Ref) (name : Str) :
    Ensures (findAddChannelNick s c name) (fun r => ChansKept π new s r.2) fun _ => True := by
  unfold findAddChannelNick
  split
  · trivial
  refine (NetworkState.chan_ensures open_faults c).bind fun ch _ => ?_
  split
  · trivial
  refine (findChannelNick_ensures open_faults c _).bind fun r _ => ?_
  cases r with
  | some m => exact .refl s
  | none =>
      refine (findAddNetworkNick_chans _).bind ?_
      rintro ⟨g, s₁⟩ h₁
      refine Ensures.bind (Q := fun _ => True) (by cases prefixModes s₁.info _ <;> trivial) ?_
      intro modes _
      refine (NetworkState.chan_ensures open_faults c).bind fun ch₁ hch₁ => ?_
      refine (NetworkState.nick_ensures open_faults g).bind fun gn _ => ?_
      have added : ChansKept π new s₁ (addMemb s₁ c g ch₁ gn modes) :=
        .of_set (Nat.le_succ _) rfl hch₁ (hπ.nicks _ _)
      exact h₁.kept.trans added

/-! ### Joining and leaving -/

theorem joinChannel_kept (hπ : ChanReading π new) (origin nick name : Str) :
    Ensures (joinChannel origin nick s name) (ChansKept π new s) fun _ => True := by
  refine (findAddChannel_kept hπ name).bind ?_
  rintro ⟨c, s₁⟩ h₁
  refine (findAddChannelNick_kept hπ c nick).bind ?_
  rintro ⟨m, s₂⟩ h₂
  refine (NetworkState.memb_ensures open_faults m).bind fun cn _ => ?_
  refine (modifyNick_chans _).bind fun s₃ h₃ => ?_
  refine (NetworkState.nick_ensures open_faults _).bind fun me _ => ?_
  refine (irccmp_ensures open_faults _ _ _).bind fun _ _ => ?_
  exact (h₁.trans h₂).trans h₃.kept

/-- A loop whose body keeps the channels keeps them. -/
theorem foldlM_kept {ι : Type} {f : NetworkState → ι → Except Fault NetworkState} {is : List ι}
    (hf : ∀ s, ∀ i ∈ is, Ensures (f s i) (ChansKept π new s) fun _ => True) :
    Ensures (is.foldlM f s) (ChansKept π new s) fun _ => True :=
  Ensures.foldlM (fun s' i hi hs' => (hf s' i hi).imp fun _ => hs'.trans) (.refl s)

theorem handleJoin_kept (hπ : ChanReading π new) :
    Ensures (handleJoin s l) (ChansKept π new s) fun _ => True := by
  unfold handleJoin
  split
  · exact .refl s
  refine (lineGetNick_ensures open_faults).bind fun nick _ => ?_
  refine (IrcLine.argStr_ensures open_faults 1).bind fun channels _ => ?_
  exact foldlM_kept fun s' name _ => joinChannel_kept hπ _ nick name

theorem leaveChannel_kept (hπ : ChanReading π new) (c : Ref) (nick : Str) :
    Ensures (leaveChannel s c nick) (ChansKept π new s) fun _ => True := by
  refine (NetworkState.nick_ensures open_faults _).bind fun me _ => ?_
  refine (ircEq_ensures open_faults _ _ _).bind fun b _ => ?_
  split
  · exact freeChannelState_kept hπ c
  · exact .refl s

theorem partChannel_kept (hπ : ChanReading π new) (nick name : Str) :
    Ensures (partChannel nick s name) (ChansKept π new s) fun _ => True := by
  refine (findChannel_ensures open_faults name).bind fun r _ => ?_
  cases r with
  | none => exact .refl s
  | some c =>
      refine (findChannelNick_ensures open_faults c nick).bind fun m _ => ?_
      have hfree : Ensures (freeFound s m) (ChansKept π new s) fun _ => True := by
        cases m with
        | none => exact .refl s
        | some m => exact freeChannelNick_kept hπ s m
      exact hfree.bind fun s₁ h₁ => (leaveChannel_kept hπ c nick).imp fun _ => h₁.trans

theorem handlePart_kept (hπ : ChanReading π new) :
    Ensures (handlePart s l) (ChansKept π new s) fun _ => True := by
  unfold handlePart
  split
  · exact .refl s
  refine (lineGetNick_ensures open_faults).bind fun nick _ => ?_
  refine (IrcLine.argStr_ensures open_faults 1).bind fun channels _ => ?_
  exact foldlM_kept fun s' name _ => partChannel_kept hπ nick name

theorem kickChannel_kept (hπ : ChanReading π new) (p : Str × Str) :
    Ensures (kickChannel s p) (ChansKept π new s) fun _ => True := by
  refine (findChannel_ensures open_faults p.1).bind fun r _ => ?_
  cases r with
  | none => exact .refl s
  | some c =>
      refine (findChannelNick_ensures open_faults c p.2).bind fun m _ => ?_
      cases m with
      | none => exact .refl s
      | some m =>
          refine (freeChannelNick_kept hπ s m).bind fun s₁ h₁ => ?_
          exact (leaveChannel_kept hπ c p.2).imp fun _ => h₁.trans

theorem handleKick_kept (hπ : ChanReading π new) :
    Ensures (handleKick s l) (ChansKept π new s) fun _ => True := by
  unfold handleKick
  split
  · exact .refl s
  refine (IrcLine.argStr_ensures open_faults 1).bind fun channels _ => ?_
  refine (IrcLine.argStr_ensures open_faults 2).bind fun nicks _ => ?_
  exact foldlM_kept fun s' p _ => kickChannel_kept hπ p

theorem handleQuit_kept (hπ : ChanReading π new) :
    Ensures (handleQuit s l) (ChansKept π new s) fun _ => True := by
  unfold handleQuit
  split
  · exact .refl s
  refine (lineGetNick_ensures open_faults).bind fun nick _ => ?_
  refine (findNetworkNick_ensures open_faults nick).bind fun r _ => ?_
  cases r with
  | none => exact .refl s
  | some g =>
      dsimp only
      split
      · refine (NetworkState.nick_ensures open_faults _).bind fun me _ => ?_
        exact whileFree_keeps (I := ChansKept π new s)
          (fun s' r hs' => (freeChannelNick_kept hπ s' r).imp fun _ => hs'.trans) _ (.refl s)
      · exact freeNetworkNick_kept hπ s g

/-! ### Names and users -/

theorem handleNamreply_kept (hπ : ChanReading π new)
    (hmode : ∀ ch b, π { ch with mode := b } = π ch)
    (hstart : ∀ ch b, π { ch with namreplyStarted := b } = π ch) :
    Ensures (handleNamreply s l) (ChansKept π new s) fun _ => True := by
  refine (IrcLine.argStr_ensures open_faults 3).bind fun chan _ => ?_
  refine (findChannel_ensures open_faults chan).bind fun r _ => ?_
  cases r with
  | none => exact .refl s
  | some c =>
      refine (IrcLine.argStr_ensures open_faults 4).bind fun names _ => ?_
      refine (IrcLine.argStr_ensures open_faults 2).bind fun mode _ => ?_
      have set : Ensures (s.modifyChan c fun ch => { ch with mode := mode.head? })
          (ChansKept π new s) fun _ => True := modifyChan_kept (fun ch => hmode ch _) c
      refine set.bind fun s₁ h₁ => ?_
      have restart : Ensures (restartNames s₁ c) (ChansKept π new s₁) fun _ => True := by
        refine (NetworkState.chan_ensures open_faults c).bind fun ch _ => ?_
        split
        · exact .refl s₁
        · refine (freeNames_kept hπ c).bind fun s₂ h₂ => ?_
          exact (modifyChan_kept (fun ch => hstart ch true) c).imp fun _ => h₂.trans
      refine restart.bind fun s₂ h₂ => ?_
      refine (foldlM_kept fun s' name _ => ?_).imp fun _ => (h₁.trans h₂).trans
      unfold addName
      split
      · exact .refl s'
      · exact (findAddChannelNick_kept hπ c name).bind fun r hr => hr

theorem handleWhoreply_kept (now : Long) :
    Ensures (handleWhoreply now s l) (ChansKept π new s) fun _ => True := by
  refine (IrcLine.argStr_ensures open_faults 6).bind fun nick _ => ?_
  refine (findAddNetworkNick_chans nick).bind ?_
  rintro ⟨g, s₁⟩ h₁
  refine (IrcLine.argStr_ensures open_faults 3).bind fun username _ => ?_
  refine (IrcLine.argStr_ensures open_faults 4).bind fun host _ => ?_
  refine (modifyNick_chans _).bind fun s₂ h₂ => ?_
  refine (IrcLine.argStr_ensures open_faults 8).bind fun trailing _ => ?_
  refine (IrcLine.argStr_ensures open_faults 5).bind fun server _ => ?_
  refine (modifyNick_chans _).bind fun s₃ h₃ => ?_
  have h : ChansKept π new s s₃ := (h₁.kept.trans h₂.kept).trans h₃.kept
  refine (IrcLine.argStr_ensures open_faults 2).bind fun name _ => ?_
  refine (findChannel_ensures open_faults name).bind fun r _ => ?_
  cases r with
  | none => exact h
  | some c =>
      refine (NetworkState.nick_ensures open_faults g).bind fun n _ => ?_
      split
      · trivial
      refine (findChannelNick_ensures open_faults c _).bind fun m _ => ?_
      cases m with
      | none => exact h
      | some m =>
          refine (NetworkState.memb_ensures open_faults m).bind fun cn _ => ?_
          refine (IrcLine.arg_ensures open_faults 7).bind fun flags _ => ?_
          exact h.trans (ChansSame.kept ⟨le_rfl, rfl⟩)

theorem handlePrivmsg_kept : Ensures (handlePrivmsg s l) (ChansKept π new s) fun _ => True := by
  unfold handlePrivmsg
  split
  · exact .refl s
  refine (IrcLine.argStr_ensures open_faults 1).bind fun target _ => ?_
  refine (NetworkState.nick_ensures open_faults _).bind fun me _ => ?_
  refine (ircEq_ensures open_faults _ _ _).bind fun b _ => ?_
  split
  · refine (lineGetNick_ensures open_faults).bind fun nick _ => ?_
    refine (findAddNetworkNick_chans nick).bind fun r hr => ?_
    exact (modifyNick_chans _).imp fun _ hs' => hr.kept.trans hs'.kept
  · exact .refl s

theorem handleNick_kept : Ensures (handleNick s l) (ChansKept π new s) fun _ => True := by
  unfold handleNick
  split
  · exact .refl s
  refine (lineGetNick_ensures open_faults).bind fun nick _ => ?_
  refine (findAddNetworkNick_chans nick).bind fun r hr => ?_
  refine (IrcLine.argStr_ensures open_faults 1).bind fun name _ => ?_
  exact (modifyNick_chans _).imp fun _ hs' => hr.kept.trans hs'.kept

theorem handle302_kept : Ensures (handle302 s l) (ChansKept π new s) fun _ => True := by
  refine (IrcLine.argStr_ensures open_faults 2).bind fun users _ => ?_
  refine foldlM_kept fun s' user _ => ?_
  unfold userhost
  split
  · refine (findAddNetworkNick_chans _).bind fun r hr => ?_
    dsimp only
    split
    · trivial
    · exact (modifyNick_chans _).imp fun _ hs' => hr.kept.trans hs'.kept
  · exact .refl s'

/-! ### Fields -/

/-- The rest of a handler that looks for a channel first. -/
theorem findChannel_kept {f : Ref → Except Fault NetworkState} (name : Str)
    (hf : ∀ c, Ensures (f c) (ChansKept π new s) fun _ => True) :
    Ensures (findChannel s name >>= fun o => match o with
      | none => pure s
      | some c => f c) (ChansKept π new s) fun _ => True := by
  refine (findChannel_ensures open_faults name).bind fun o _ => ?_
  cases o with
  | none => exact .refl s
  | some c => exact hf c

theorem handleTopic_kept (now : Long)
    (hπ : ∀ ch t at' b, π { ch with topic := t, topicSetTime := at', topicSetBy := b } = π ch) :
    Ensures (handleTopic now s l) (ChansKept π new s) fun _ => True := by
  refine (IrcLine.argStr_ensures open_faults 1).bind fun name _ => ?_
  refine (findChannel_ensures open_faults name).bind fun o _ => ?_
  split
  · exact .refl s
  cases o with
  | none => trivial
  | some c =>
      refine (IrcLine.arg_ensures open_faults 2).bind fun topic _ => ?_
      refine (lineGetNick_ensures open_faults).bind fun nick _ => ?_
      exact modifyChan_kept (fun ch => hπ ch _ _ _) c

theorem handle332_kept (hπ : ∀ ch t, π { ch with topic := t } = π ch) :
    Ensures (handle332 s l) (ChansKept π new s) fun _ => True := by
  refine (IrcLine.argStr_ensures open_faults 2).bind fun name _ => findChannel_kept name fun c => ?_
  refine (IrcLine.arg_ensures open_faults 3).bind fun topic _ => ?_
  exact modifyChan_kept (fun ch => hπ ch _) c

theorem handle333_kept
    (hπ : ∀ ch at' b, π { ch with topicSetTime := at', topicSetBy := b } = π ch) :
    Ensures (handle333 s l) (ChansKept π new s) fun _ => True := by
  refine (IrcLine.argStr_ensures open_faults 2).bind fun name _ => findChannel_kept name fun c => ?_
  refine (IrcLine.argStr_ensures open_faults 4).bind fun time _ => ?_
  refine (IrcLine.arg_ensures open_faults 3).bind fun by' _ => ?_
  exact modifyChan_kept (fun ch => hπ ch _ _) c

theorem handleNoTopic_kept (hπ : ∀ ch t, π { ch with topic := t } = π ch) :
    Ensures (handleNoTopic s l) (ChansKept π new s) fun _ => True := by
  refine (IrcLine.argStr_ensures open_faults 1).bind fun name _ => findChannel_kept name fun c => ?_
  exact modifyChan_kept (fun ch => hπ ch _) c

theorem handleEndNames_kept (hπ : ∀ ch b, π { ch with namreplyStarted := b } = π ch) :
    Ensures (handleEndNames s l) (ChansKept π new s) fun _ => True := by
  refine (IrcLine.argStr_ensures open_faults 2).bind fun name _ => findChannel_kept name fun c => ?_
  exact modifyChan_kept (fun ch => hπ ch _) c

theorem handle324_kept (hπ : ∀ ch m, π { ch with modes := m, modeReceived := true } = π ch) :
    Ensures (handle324 s l) (ChansKept π new s) fun _ => True := by
  refine (IrcLine.argStr_ensures open_faults 2).bind fun name _ => findChannel_kept name fun c => ?_
  refine (IrcLine.argStr_ensures open_faults 3).bind fun w _ => ?_
  refine Ensures.bind (Q := fun _ => True) (by cases string2mode (some w) <;> trivial) fun m _ => ?_
  exact modifyChan_kept (fun ch => hπ ch _) c

theorem handle329_kept (hπ : ∀ ch t, π { ch with creationTime := t } = π ch) :
    Ensures (handle329 s l) (ChansKept π new s) fun _ => True := by
  refine (IrcLine.argStr_ensures open_faults 2).bind fun name _ => findChannel_kept name fun c => ?_
  refine (IrcLine.argStr_ensures open_faults 3).bind fun time _ => ?_
  exact modifyChan_kept (fun ch => hπ ch _) c

/-- A listing that is not read. -/
theorem handleMaskEntry_kept (k : MaskList) (hπ : ∀ i, i.1 = k.letter.1 → ∀ ch mask b at',
    π (addMask k i mask b at' ch) = π ch) :
    Ensures (handleMaskEntry k s l) (ChansKept π new s) fun _ => True := by
  refine (IrcLine.argStr_ensures open_faults 2).bind fun name _ => findChannel_kept name fun c => ?_
  refine (modeSlot_ensures fun _ => trivial).bind fun i hi => ?_
  refine (IrcLine.arg_ensures open_faults 3).bind fun mask _ => ?_
  refine (maskSetter_ensures open_faults k).bind fun x _ => ?_
  exact modifyChan_kept (fun ch => hπ i hi ch _ _ _) c

theorem handleEndMasks_kept (k : MaskList) (hπ : ∀ i, i.1 = k.letter.1 → ∀ ch,
    π { k.setStarted ch false with
      chanmodeNicklistPresent := ModeArray.set ch.chanmodeNicklistPresent i true } = π ch) :
    Ensures (handleEndMasks k s l) (ChansKept π new s) fun _ => True := by
  refine (IrcLine.argStr_ensures open_faults 2).bind fun name _ => findChannel_kept name fun c => ?_
  refine (modeSlot_ensures fun _ => trivial).bind fun i hi => ?_
  exact modifyChan_kept (fun ch => hπ i hi ch) c


/-! ### The user and the server -/

theorem handleUmodeis_chans : Ensures (handleUmodeis s l) (ChansSame s) fun _ => True := by
  refine (IrcLine.argStr_ensures open_faults 1).bind fun w _ => ?_
  refine Ensures.bind (Q := fun _ => True) (by cases string2mode (some w) <;> trivial) fun m _ => ?_
  exact modifyNick_chans meRef

theorem handle001_chans : Ensures (handle001 s l) (ChansSame s) fun _ => True :=
  (IrcLine.arg_ensures open_faults 1).bind fun _ _ => modifyNick_chans meRef

theorem handle004_chans : Ensures (handle004 s l) (ChansSame s) fun _ => True := by
  refine (IrcLine.arg_ensures open_faults 4).bind fun _ _ => ?_
  refine (IrcLine.arg_ensures open_faults 5).bind fun _ _ => ?_
  exact (IrcLine.arg_ensures open_faults 2).bind fun _ _ => ⟨le_rfl, rfl⟩

theorem handle005_chans : Ensures (handle005 s l) (ChansSame s) fun _ => True := by
  refine Ensures.bind (Q := fun _ => True) ?_ fun info _ => ⟨le_rfl, rfl⟩
  cases (l.args.dropLast.drop 2).foldlM networkInfoParse s.info <;> trivial

/-! ### Handlers that leave the lists of masks -/

/-- A way to read a channel that looks at its lists of masks only. -/
structure ListReading (π : ChannelState → α) (new : α) : Prop where
  fresh : ∀ name, π { ircChannelStateNew name with network := true } = new
  lists : ∀ ch ch', ch'.chanmodeNicklist = ch.chanmodeNicklist →
    ch'.chanmodeNicklistPresent = ch.chanmodeNicklistPresent →
    (∀ k : MaskList, k.started ch' = k.started ch) → π ch' = π ch

theorem ListReading.chan (hπ : ListReading π new) : ChanReading π new :=
  ⟨fun ch _ => hπ.lists ch _ rfl rfl fun k => by cases k <;> rfl, hπ.fresh⟩

/-- 346, 348 and 367. -/
def MaskList.entryCommand : MaskList → Command
  | invitelist => .invitelistEntry
  | exceptlist => .exceptlistEntry
  | banlist => .banlistEntry

/-- 347, 349 and 368. -/
def MaskList.endCommand : MaskList → Command
  | invitelist => .endInvitelist
  | exceptlist => .endExceptlist
  | banlist => .endBanlist

/-- A line that is no mode change and of no listing leaves the lists of masks. -/
theorem Command.handler_kept (hπ : ListReading π new) (now : Long) {cmd : Command}
    (hmode : cmd ≠ .mode) (hlist : ∀ k : MaskList, cmd ≠ k.entryCommand ∧ cmd ≠ k.endCommand) :
    Ensures (cmd.handler now s l) (ChansKept π new s) fun _ => True := by
  have same {ch ch' : ChannelState} (hn : ch'.chanmodeNicklist = ch.chanmodeNicklist)
      (hp : ch'.chanmodeNicklistPresent = ch.chanmodeNicklistPresent)
      (hb : ch'.banlistStarted = ch.banlistStarted) (hi : ch'.invitelistStarted = ch.invitelistStarted)
      (he : ch'.exceptlistStarted = ch.exceptlistStarted) : π ch' = π ch := by
    refine hπ.lists ch ch' hn hp fun k => ?_
    cases k with
    | invitelist => exact hi
    | exceptlist => exact he
    | banlist => exact hb
  cases cmd with
  | join => exact handleJoin_kept hπ.chan
  | part => exact handlePart_kept hπ.chan
  | kick => exact handleKick_kept hπ.chan
  | quit => exact handleQuit_kept hπ.chan
  | topic => exact handleTopic_kept now fun _ _ _ _ => same rfl rfl rfl rfl rfl
  | nick => exact handleNick_kept
  | privmsg => exact handlePrivmsg_kept
  | c302 => exact handle302_kept
  | c324 => exact handle324_kept fun _ _ => same rfl rfl rfl rfl rfl
  | c329 => exact handle329_kept fun _ _ => same rfl rfl rfl rfl rfl
  | c332 => exact handle332_kept fun _ _ => same rfl rfl rfl rfl rfl
  | c333 => exact handle333_kept fun _ _ _ => same rfl rfl rfl rfl rfl
  | noTopic => exact handleNoTopic_kept fun _ _ => same rfl rfl rfl rfl rfl
  | namreply =>
      exact handleNamreply_kept hπ.chan (fun _ _ => same rfl rfl rfl rfl rfl)
        fun _ _ => same rfl rfl rfl rfl rfl
  | endNames => exact handleEndNames_kept fun _ _ => same rfl rfl rfl rfl rfl
  | whoreply => exact handleWhoreply_kept now
  | endWho => exact .refl s
  | nowaway => exact ChansSame.kept ⟨le_rfl, rfl⟩
  | unaway => exact ChansSame.kept ⟨le_rfl, rfl⟩
  | umodeis => exact handleUmodeis_chans.imp fun _ => ChansSame.kept
  | c001 => exact handle001_chans.imp fun _ => ChansSame.kept
  | c004 => exact handle004_chans.imp fun _ => ChansSame.kept
  | c005 => exact handle005_chans.imp fun _ => ChansSame.kept
  | mode => exact absurd rfl hmode
  | banlistEntry => exact absurd rfl (hlist .banlist).1
  | endBanlist => exact absurd rfl (hlist .banlist).2
  | invitelistEntry => exact absurd rfl (hlist .invitelist).1
  | endInvitelist => exact absurd rfl (hlist .invitelist).2
  | exceptlistEntry => exact absurd rfl (hlist .exceptlist).1
  | endExceptlist => exact absurd rfl (hlist .exceptlist).2

end

end Ctrlproxy
