import Ctrlproxy.Config.Settings
import Ctrlproxy.State.Departure

/-!
# Config — remembering joined channels

`network_update_config` of `src/gen_config.c` brings the channels of a network configuration up to
date when a connection ends or the configuration is saved: no channel is to be joined, then every
channel the user is on is, with the key the channel has, and is put into the list where it is missing.

* `Remembered` is what holds of the list after some of the joined channels;
* `refreshed` is the list in the middle of an update that has been made before.

A pointer to an entry is its position in the list, which the loop only appends to.
-/

namespace Ctrlproxy.Config
open Outcome

/-! ### The update -/

/-- `config_find_channel`, with the position of the entry it answers. -/
def configFindChannel (ni : NetworkInfo) (name : Str) :
    List ChannelConfig → Except Fault (Option ℕ)
  | [] => .ok none
  | cc :: channels =>
      match cc.name with
      | none => .error .assertion
      | some a => do
          if (← irccmp (some ni) (some a) (some name)) = 0 then pure (some 0)
          else (configFindChannel ni name channels).map (·.map (· + 1))

/-- The slot of the channel key. -/
def keySlot : Fin MAXMODES := ⟨(chr 'k').1, by decide⟩

/-- What the loop of `network_update_config` writes to the entry of a channel. -/
def ChannelConfig.join (cs : ChannelState) (cc : ChannelConfig) : ChannelConfig :=
  { cc with key := cs.chanmodeOption keySlot, autojoin := true }

/-- A round of the loop of `network_update_config`. -/
def rememberChannel (ni : NetworkInfo) (channels : List ChannelConfig) (cs : ChannelState) :
    Except Fault (List ChannelConfig) := do
  match ← configFindChannel ni cs.name channels with
  | some i => pure (channels.modify i (ChannelConfig.join cs))
  | none => pure (channels ++ [ChannelConfig.join cs ⟨some cs.name, none, false⟩])

/-- The nick of the configuration: `strcmp` follows both pointers. -/
def rememberNick (defaultNick nick me : Option Str) : Except Fault (Option Str) :=
  match defaultNick, nick with
  | some d, none =>
      match me with
      | none => .error .null
      | some a => .ok (if d ≠ a then some a else none)
  | _, _ => .ok me

/-- `cc->autojoin = FALSE`. -/
def ChannelConfig.forget (cc : ChannelConfig) : ChannelConfig := { cc with autojoin := false }

/-- `network_update_config`. -/
def networkUpdateConfig {V : Type} (ns : Option NetworkState) (nc : NetworkConfig V)
    (defaultNick : Option Str) : Except Fault (NetworkConfig V) :=
  match ns with
  | none => .ok nc
  | some ns => do
      let me ← ns.nick meRef
      let nick ← rememberNick defaultNick nc.nick me.nick
      let channels ← ns.channels.foldlM (fun channels r => do
        let cs ← ns.chan r
        rememberChannel ns.info channels cs) (nc.channels.map ChannelConfig.forget)
      pure { nc with nick := nick, channels := channels }

@[simp] theorem ChannelConfig.join_name (cs : ChannelState) (cc : ChannelConfig) :
    (cc.join cs).name = cc.name := rfl

@[simp] theorem ChannelConfig.join_key (cs : ChannelState) (cc : ChannelConfig) :
    (cc.join cs).key = cs.chanmodeOption keySlot := rfl

@[simp] theorem ChannelConfig.join_autojoin (cs : ChannelState) (cc : ChannelConfig) :
    (cc.join cs).autojoin = true := rfl

@[simp] theorem ChannelConfig.forget_name (cc : ChannelConfig) : cc.forget.name = cc.name := rfl

@[simp] theorem ChannelConfig.forget_key (cc : ChannelConfig) : cc.forget.key = cc.key := rfl

@[simp] theorem ChannelConfig.forget_autojoin (cc : ChannelConfig) :
    cc.forget.autojoin = false := rfl

/-! ### The search -/

/-- An entry is of a name, for `irccmp`. -/
def Matches (ni : NetworkInfo) (cc : ChannelConfig) (name : Str) : Prop :=
  irccmp (some ni) cc.name (some name) = .ok 0

section
variable {ni : NetworkInfo} {name name' : Str} {cc : ChannelConfig} {l l' : List ChannelConfig}
  {i : ℕ}

theorem matches_iff : Matches ni cc name ↔
    cc.name.map (casemapOf (some ni)).fold = some ((casemapOf (some ni)).fold name) := by
  rw [Matches]
  cases h : cc.name with
  | none => simp [irccmp]
  | some a => simp [irccmp, irccmpStr_eq_zero_iff]

instance : Decidable (Matches ni cc name) := decidable_of_iff _ matches_iff.symm

theorem matches_self (h : cc.name = some name) : Matches ni cc name := by
  rw [matches_iff, h, Option.map_some]

/-- Two names an entry is of are the same for `irccmp`. -/
theorem Matches.fold_eq (h : Matches ni cc name) (h' : Matches ni cc name') :
    (casemapOf (some ni)).fold name = (casemapOf (some ni)).fold name' :=
  Option.some_inj.mp ((matches_iff.mp h).symm.trans (matches_iff.mp h'))

theorem configFindChannel_step (ni : NetworkInfo) (name : Str) (cc : ChannelConfig)
    (l : List ChannelConfig) : configFindChannel ni name (cc :: l) = match cc.name with
      | none => .error .assertion
      | some a => irccmp (some ni) (some a) (some name) >>= fun r =>
          if r = 0 then pure (some 0)
          else (configFindChannel ni name l).map (·.map (· + 1)) := rfl

theorem configFindChannel_nameless (h : cc.name = none) :
    configFindChannel ni name (cc :: l) = .error .assertion := by
  rw [configFindChannel_step, h]

theorem configFindChannel_cons {a : Str} (h : cc.name = some a) :
    configFindChannel ni name (cc :: l) =
      if Matches ni cc name then .ok (some 0)
      else (configFindChannel ni name l).map (·.map (· + 1)) := by
  have hm : Matches ni cc name ↔ irccmpStr (casemapOf (some ni)) a name = 0 := by
    rw [Matches, h, irccmp, Except.ok.injEq]
  simp only [configFindChannel_step, h, irccmp, ok_bind, pure_eq_ok, hm]

/-- What was found is of the name. -/
theorem configFindChannel_some (h : configFindChannel ni name l = .ok (some i)) :
    ∃ cc, l[i]? = some cc ∧ Matches ni cc name := by
  induction l generalizing i with
  | nil => cases h
  | cons cc l ih =>
      cases hname : cc.name with
      | none => rw [configFindChannel_nameless hname] at h; cases h
      | some a =>
          rw [configFindChannel_cons hname] at h
          split_ifs at h with hm
          · cases h
            exact ⟨cc, rfl, hm⟩
          · obtain ⟨o, ho, e⟩ := map_eq_ok h
            obtain ⟨k, rfl, rfl⟩ := Option.map_eq_some_iff.mp e
            exact ih ho

/-- What is found stays found: the search looks at the names alone, and stops. -/
theorem configFindChannel_mono (hp : l.map (·.name) <+: l'.map (·.name))
    (h : configFindChannel ni name l = .ok (some i)) :
    configFindChannel ni name l' = .ok (some i) := by
  induction l generalizing i l' with
  | nil => cases h
  | cons cc l ih =>
      cases l' with
      | nil => exact absurd (List.prefix_nil.mp hp) (List.cons_ne_nil _ _)
      | cons cc' l' =>
          obtain ⟨hname, hp'⟩ := List.cons_prefix_cons.mp hp
          simp only [configFindChannel_step, ← show cc.name = cc'.name from hname] at h ⊢
          cases ha : cc.name with
          | none => rw [ha] at h; cases h
          | some a =>
              simp only [ha, irccmp, ok_bind, pure_eq_ok] at h ⊢
              split_ifs at h ⊢ with hm
              · exact h
              · obtain ⟨o, ho, e⟩ := map_eq_ok h
                obtain ⟨k, rfl, rfl⟩ := Option.map_eq_some_iff.mp e
                rw [ih hp' ho]
                rfl

/-- An entry of a name that was not found is found at the end. -/
theorem configFindChannel_snoc (h : configFindChannel ni name l = .ok none)
    (hcc : cc.name = some name) : configFindChannel ni name (l ++ [cc]) = .ok (some l.length) := by
  induction l with
  | nil => rw [List.nil_append, configFindChannel_cons hcc, if_pos (matches_self hcc), List.length_nil]
  | cons cc' l ih =>
      cases hname : cc'.name with
      | none => rw [configFindChannel_nameless hname] at h; cases h
      | some a =>
          rw [configFindChannel_cons hname] at h
          rw [List.cons_append, configFindChannel_cons hname]
          split_ifs at h ⊢ with hm
          · cases h
          · obtain ⟨o, ho, e⟩ := map_eq_ok h
            rw [Option.map_eq_none_iff.mp e] at ho
            rw [ih ho]
            rfl

/-- The search stops at an entry without a name only. -/
theorem configFindChannel_ensures : Ensures (configFindChannel ni name l) (fun _ => True)
    fun e => e = .assertion ∧ ∃ cc ∈ l, cc.name = none := by
  induction l with
  | nil => trivial
  | cons cc l ih =>
      cases hname : cc.name with
      | none =>
          rw [configFindChannel_nameless hname]
          exact ⟨rfl, cc, List.mem_cons_self, hname⟩
      | some a =>
          rw [configFindChannel_cons hname]
          split_ifs
          · trivial
          · cases hf : configFindChannel ni name l with
            | ok o => trivial
            | error e =>
                rw [hf] at ih
                obtain ⟨he, cc', hcc', hn⟩ := ih
                exact ⟨he, cc', List.mem_cons_of_mem _ hcc', hn⟩

/-! ### A round -/

/-- A round finds or appends one entry, which it writes to. -/
theorem rememberChannel_spec {cs : ChannelState} (h : rememberChannel ni l cs = .ok l') :
    ∃ i, ∃ cc : ChannelConfig, configFindChannel ni cs.name l' = .ok (some i) ∧
      l'[i]? = some (cc.join cs) ∧
      (∀ j, j ≠ i → l'[j]? = l[j]?) ∧ l.map (·.name) <+: l'.map (·.name) := by
  obtain ⟨o, ho, h⟩ := bind_eq_ok h
  cases o with
  | some i =>
      cases h
      obtain ⟨cc, hcc, -⟩ := configFindChannel_some ho
      have hnames : (l.modify i (ChannelConfig.join cs)).map (·.name) = l.map (·.name) := by
        ext j : 1
        rw [List.getElem?_map, List.getElem?_modify, List.getElem?_map]
        cases l[j]? <;> simp [apply_ite]
      refine ⟨i, cc, configFindChannel_mono (hnames ▸ List.prefix_rfl) ho, ?_, ?_, hnames ▸ List.prefix_rfl⟩
      · rw [List.getElem?_modify_eq, hcc]
        rfl
      · intro j hj
        rw [List.getElem?_modify_ne _ _ hj.symm]
  | none =>
      cases h
      refine ⟨l.length, ⟨some cs.name, none, false⟩, configFindChannel_snoc ho rfl,
        List.getElem?_concat_length, ?_, ?_⟩
      · intro j hj
        rw [List.getElem?_append]
        split_ifs with hlt
        · rfl
        · rw [List.getElem?_eq_none (not_lt.mp hlt), List.getElem?_eq_none]
          simp only [List.length_singleton]
          omega
      · rw [List.map_append]
        exact List.prefix_append _ _

/-! ### A run -/

/-- What the list is after a run over the channels `done`. -/
structure Remembered (ni : NetworkInfo) (old : List ChannelConfig) (done : List ChannelState)
    (l : List ChannelConfig) : Prop where
  names : old.map (·.name) <+: l.map (·.name)
  found : ∀ cs ∈ done, ∃ (i : ℕ) (cc : ChannelConfig),
    configFindChannel ni cs.name l = .ok (some i) ∧ l[i]? = some cc ∧ cc.autojoin = true ∧
      cc.key = cs.chanmodeOption keySlot
  flagged : ∀ (i : ℕ) (cc : ChannelConfig), l[i]? = some cc → cc.autojoin = true →
    ∃ cs ∈ done, configFindChannel ni cs.name l = .ok (some i)
  other : ∀ (i : ℕ) (cc : ChannelConfig), l[i]? = some cc → cc.autojoin = false →
    ∃ o : ChannelConfig, old[i]? = some o ∧ cc.name = o.name ∧ cc.key = o.key

/-- Two channels have different names. -/
def Different (ni : NetworkInfo) (cs cs' : ChannelState) : Prop :=
  (casemapOf (some ni)).fold cs.name ≠ (casemapOf (some ni)).fold cs'.name

variable {old : List ChannelConfig} {done js : List ChannelState} {cs : ChannelState}

theorem Remembered.start : Remembered ni old [] (old.map ChannelConfig.forget) where
  names := by
    rw [List.map_map]
    exact List.prefix_rfl
  found := fun _ hcs => absurd hcs List.not_mem_nil
  flagged := by
    intro i cc hcc e
    rw [List.getElem?_map] at hcc
    obtain ⟨o, -, rfl⟩ := Option.map_eq_some_iff.mp hcc
    exact absurd e Bool.false_ne_true
  other := by
    intro i cc hcc _
    rw [List.getElem?_map] at hcc
    obtain ⟨o, ho, rfl⟩ := Option.map_eq_some_iff.mp hcc
    exact ⟨o, ho, rfl, rfl⟩

theorem Remembered.round (h : Remembered ni old done l) (hd : ∀ d ∈ done, Different ni d cs)
    (hr : rememberChannel ni l cs = .ok l') : Remembered ni old (done ++ [cs]) l' := by
  obtain ⟨i, cc, hf, hi, hj, hnames⟩ := rememberChannel_spec hr
  refine ⟨h.names.trans hnames, ?_, ?_, ?_⟩
  · intro d hd'
    rcases List.mem_append.mp hd' with hd' | hd'
    · obtain ⟨k, c, hk, hc, hauto, hkey⟩ := h.found d hd'
      have hk' := configFindChannel_mono hnames hk
      refine ⟨k, c, hk', ?_, hauto, hkey⟩
      -- the entry of another channel is another entry
      rw [hj k, hc]
      rintro rfl
      obtain ⟨e, he, hm⟩ := configFindChannel_some hf
      obtain ⟨e', he', hm'⟩ := configFindChannel_some hk'
      rw [he, Option.some_inj] at he'
      exact hd d hd' (hm'.fold_eq (he' ▸ hm))
    · rw [List.mem_singleton.mp hd']
      exact ⟨i, cc.join cs, hf, hi, rfl, rfl⟩
  · intro k c hc hauto
    by_cases hk : k = i
    · exact ⟨cs, List.mem_append_right _ (List.mem_singleton_self _), hk ▸ hf⟩
    · rw [hj k hk] at hc
      obtain ⟨d, hd', hk'⟩ := h.flagged k c hc hauto
      exact ⟨d, List.mem_append_left _ hd', configFindChannel_mono hnames hk'⟩
  · intro k c hc hauto
    by_cases hk : k = i
    · rw [hk, hi, Option.some_inj] at hc
      rw [← hc] at hauto
      cases hauto
    · exact h.other k c (hj k hk ▸ hc) hauto

/-- An entry without a name was there before. -/
theorem Remembered.unnamed (h : Remembered ni old done l) (hl : ∃ cc ∈ l, cc.name = none) :
    ∃ cc ∈ old, cc.name = none := by
  obtain ⟨cc, hcc, hn⟩ := hl
  obtain ⟨i, hi⟩ := List.mem_iff_getElem?.mp hcc
  cases hauto : cc.autojoin with
  | true =>
      obtain ⟨cs, -, hf⟩ := h.flagged i cc hi hauto
      obtain ⟨c, hc, hm⟩ := configFindChannel_some hf
      rw [hi, Option.some_inj] at hc
      rw [← hc, matches_iff, hn] at hm
      cases hm
  | false =>
      obtain ⟨o, ho, hname, -⟩ := h.other i cc hi hauto
      exact ⟨o, List.mem_of_getElem? ho, hname.symm.trans hn⟩

theorem rememberChannel_ensures : Ensures (rememberChannel ni l cs) (fun _ => True)
    fun e => e = .assertion ∧ ∃ cc ∈ l, cc.name = none :=
  configFindChannel_ensures.bind fun o _ => by cases o <;> trivial

theorem Remembered.run (h : Remembered ni old done l) (hd : (done ++ js).Pairwise (Different ni)) :
    Ensures (js.foldlM (rememberChannel ni) l) (Remembered ni old (done ++ js))
      fun e => e = .assertion ∧ ∃ cc ∈ old, cc.name = none := by
  induction js generalizing done l with
  | nil => rwa [List.append_nil]
  | cons cs js ih =>
      have hnew : ∀ d ∈ done, Different ni d cs := fun d hd' =>
        (List.pairwise_append.mp hd).2.2 d hd' cs List.mem_cons_self
      rw [List.foldlM_cons]
      rw [List.append_cons] at hd ⊢
      refine (rememberChannel_ensures.with_eq.mono (fun _ hl' => hl'.1) ?_).bind
        fun l' hl' => ih (h.round hnew hl') hd
      exact fun e he => ⟨he.1, h.unnamed he.2⟩

/-! ### A second run -/

/-- The list `l` in a second run over the channels `done`: the entries are those of `L`, and those
of the channels are to be joined. -/
structure Refreshed (ni : NetworkInfo) (L : List ChannelConfig) (done : List ChannelState)
    (l : List ChannelConfig) : Prop where
  entries : l.map ChannelConfig.forget = L.map ChannelConfig.forget
  flags : ∀ (i : ℕ) (cc : ChannelConfig), l[i]? = some cc →
    (cc.autojoin = true ↔ ∃ cs ∈ done, configFindChannel ni cs.name L = .ok (some i))

variable {L : List ChannelConfig}

theorem Refreshed.start : Refreshed ni L [] (L.map ChannelConfig.forget) where
  entries := by
    rw [List.map_map]
    rfl
  flags := by
    intro i cc hcc
    rw [List.getElem?_map] at hcc
    obtain ⟨o, -, rfl⟩ := Option.map_eq_some_iff.mp hcc
    simp

theorem Refreshed.names (h : Refreshed ni L done l) : l.map (·.name) = L.map (·.name) := by
  have := congrArg (List.map ChannelConfig.name) h.entries
  rwa [List.map_map, List.map_map] at this

/-- Where the entry of a channel has its key, a round writes the flag alone. -/
theorem Refreshed.round (h : Refreshed ni L done l) {cc : ChannelConfig}
    (hf : configFindChannel ni cs.name L = .ok (some i)) (hi : L[i]? = some cc)
    (hkey : cc.key = cs.chanmodeOption keySlot) :
    ∃ l', rememberChannel ni l cs = .ok l' ∧ Refreshed ni L (done ++ [cs]) l' := by
  refine ⟨l.modify i (ChannelConfig.join cs), ?_, ?_, ?_⟩
  · rw [rememberChannel, configFindChannel_mono (h.names ▸ List.prefix_rfl) hf]
    rfl
  · rw [← h.entries]
    ext j : 1
    rw [List.getElem?_map, List.getElem?_map]
    by_cases hj : i = j
    · subst hj
      have hl := congrArg (·[i]?) h.entries
      simp only [List.getElem?_map, hi, Option.map_some] at hl
      obtain ⟨o, ho, e⟩ := Option.map_eq_some_iff.mp hl
      have hk : o.key = cs.chanmodeOption keySlot := (congrArg ChannelConfig.key e).trans hkey
      rw [List.getElem?_modify_eq, ho]
      simp only [Option.map_some, Option.map_eq_map, ChannelConfig.join, ChannelConfig.forget, ← hk]
    · rw [List.getElem?_modify_ne _ _ hj]
  · intro j c hc
    by_cases hj : i = j
    · subst hj
      rw [List.getElem?_modify_eq] at hc
      obtain ⟨o, -, rfl⟩ := Option.map_eq_some_iff.mp hc
      exact iff_of_true rfl ⟨cs, List.mem_append_right _ (List.mem_singleton_self _), hf⟩
    · rw [List.getElem?_modify_ne _ _ hj] at hc
      rw [h.flags j c hc]
      constructor
      · rintro ⟨d, hd, hfd⟩
        exact ⟨d, List.mem_append_left _ hd, hfd⟩
      · rintro ⟨d, hd, hfd⟩
        rcases List.mem_append.mp hd with hd | hd
        · exact ⟨d, hd, hfd⟩
        · rw [List.mem_singleton.mp hd, hf] at hfd
          exact absurd (Option.some_inj.mp (Except.ok.inj hfd)) hj

theorem Refreshed.run (h : Refreshed ni L done l)
    (hL : ∀ cs ∈ js, ∃ (i : ℕ) (cc : ChannelConfig),
      configFindChannel ni cs.name L = .ok (some i) ∧ L[i]? = some cc ∧ cc.autojoin = true ∧
        cc.key = cs.chanmodeOption keySlot) :
    ∃ l', js.foldlM (rememberChannel ni) l = .ok l' ∧ Refreshed ni L (done ++ js) l' := by
  induction js generalizing done l with
  | nil => exact ⟨l, rfl, (List.append_nil done).symm ▸ h⟩
  | cons cs js ih =>
      obtain ⟨i, cc, hf, hi, -, hkey⟩ := hL cs List.mem_cons_self
      obtain ⟨l₁, h₁, hl₁⟩ := h.round hf hi hkey
      obtain ⟨l', h', hl'⟩ := ih hl₁ fun d hd => hL d (List.mem_cons_of_mem _ hd)
      rw [List.foldlM_cons, h₁, List.append_cons]
      exact ⟨l', h', hl'⟩

/-- A second run over the same channels ends where it began. -/
theorem Remembered.again (h : Remembered ni old js L) :
    js.foldlM (rememberChannel ni) (L.map ChannelConfig.forget) = .ok L := by
  obtain ⟨l', hl', hr⟩ := Refreshed.start.run h.found
  rw [hl']
  refine congrArg Except.ok (List.ext_getElem? fun i => ?_)
  have he := congrArg (·[i]?) hr.entries
  simp only [List.getElem?_map] at he
  cases hi : L[i]? with
  | none =>
      rw [hi, Option.map_none, Option.map_eq_none_iff] at he
      exact he
  | some c =>
      rw [hi, Option.map_some] at he
      obtain ⟨c', hc', e⟩ := Option.map_eq_some_iff.mp he
      have hflag : c'.autojoin = true ↔ c.autojoin = true := by
        rw [hr.flags i c' hc']
        constructor
        · rintro ⟨cs, hcs, hf⟩
          obtain ⟨k, cc, hk, hcc, hauto, -⟩ := h.found cs hcs
          rw [hf, Except.ok.injEq, Option.some_inj] at hk
          rw [← hk, hi, Option.some_inj] at hcc
          rwa [hcc]
        · exact h.flagged i c hi
      rw [hc']
      obtain ⟨name, key, auto⟩ := c
      obtain ⟨name', key', auto'⟩ := c'
      cases e
      rw [show auto' = auto from Bool.eq_iff_iff.mpr hflag]

end

/-! ### The joined channels -/

/-- The user is on a channel. -/
def Joined (s : NetworkState) (cs : ChannelState) : Prop :=
  ∃ c ∈ s.channels, s.chanHeap c = some cs

/-- The list of channels `new` remembers what the user is on, and what was in the list `old`. -/
structure Remembers (s : NetworkState) (old new : List ChannelConfig) : Prop where
  /-- the entries are kept in order, and others are appended -/
  kept : old.map (·.name) <+: new.map (·.name)
  /-- a joined channel has one entry that is to be joined -/
  recorded : ∀ cs, Joined s cs →
    ∃! i : ℕ, ∃ cc : ChannelConfig, new[i]? = some cc ∧ cc.autojoin = true ∧ Matches s.info cc cs.name
  /-- an entry that is to be joined is of one joined channel, and has its key -/
  joined : ∀ (i : ℕ) (cc : ChannelConfig), new[i]? = some cc → cc.autojoin = true →
    ∃ cs, Joined s cs ∧ Matches s.info cc cs.name ∧ cc.key = cs.chanmodeOption keySlot ∧
      ∀ cs', Joined s cs' → Matches s.info cc cs'.name → cs' = cs
  /-- any other entry was there before, with the key it has -/
  others : ∀ (i : ℕ) (cc : ChannelConfig), new[i]? = some cc → cc.autojoin = false →
    ∃ o : ChannelConfig, old[i]? = some o ∧ cc.key = o.key

section
variable {s : NetworkState} {old l : List ChannelConfig} {nick : Str}

theorem joined_iff {cs : ChannelState} : Joined s cs ↔ cs ∈ s.channels.filterMap s.chanHeap := by
  rw [List.mem_filterMap]
  rfl

/-- The channels of a state are followed by the loop one after another. -/
theorem foldlM_chan {refs : List Ref} (hlive : ∀ c ∈ refs, ∃ cs, s.chanHeap c = some cs) :
    refs.foldlM (fun channels r => do
        let cs ← s.chan r
        rememberChannel s.info channels cs) l =
      (refs.filterMap s.chanHeap).foldlM (rememberChannel s.info) l := by
  induction refs generalizing l with
  | nil => rfl
  | cons c refs ih =>
      obtain ⟨cs, hcs⟩ := hlive c List.mem_cons_self
      rw [List.foldlM_cons, List.filterMap_cons_some hcs, List.foldlM_cons, NetworkState.chan, hcs]
      exact congrArg _ (funext fun l' => ih fun d hd => hlive d (List.mem_cons_of_mem _ hd))

theorem joined_different (hg : Graph s) (hd : DistinctChannels (casemapOf (some s.info)) s) :
    (s.channels.filterMap s.chanHeap).Pairwise (Different s.info) := by
  rw [List.pairwise_filterMap]
  refine hg.channels_nodup.imp_of_mem fun {c c'} hc hc' hne cs hcs cs' hcs' e => hne ?_
  exact hd c hc c' hc' (by rw [channelKey_eq hcs, channelKey_eq hcs', e])

/-- Joined channels of the same name are the same. -/
theorem joined_unique (hd : DistinctChannels (casemapOf (some s.info)) s) {cs cs' : ChannelState}
    (h : Joined s cs) (h' : Joined s cs')
    (e : (casemapOf (some s.info)).fold cs.name = (casemapOf (some s.info)).fold cs'.name) :
    cs = cs' := by
  obtain ⟨c, hc, hcs⟩ := h
  obtain ⟨c', hc', hcs'⟩ := h'
  have := hd c hc c' hc' (by rw [channelKey_eq hcs, channelKey_eq hcs', e])
  rwa [this, hcs', Option.some_inj, eq_comm] at hcs

theorem Remembered.remembers (hd : DistinctChannels (casemapOf (some s.info)) s)
    (h : Remembered s.info old (s.channels.filterMap s.chanHeap) l) : Remembers s old l where
  kept := h.names
  recorded := by
    intro cs hcs
    obtain ⟨i, cc, hf, hi, hauto, -⟩ := h.found cs (joined_iff.mp hcs)
    obtain ⟨c, hc, hm⟩ := configFindChannel_some hf
    rw [hi, Option.some_inj] at hc
    refine ⟨i, ⟨cc, hi, hauto, hc ▸ hm⟩, ?_⟩
    -- another entry of the name is of the same channel, and found by the same search
    rintro j ⟨c', hj, hauto', hm'⟩
    obtain ⟨cs', hcs', hf'⟩ := h.flagged j c' hj hauto'
    obtain ⟨d, hd', hm''⟩ := configFindChannel_some hf'
    rw [hj, Option.some_inj] at hd'
    rw [joined_unique hd (joined_iff.mpr hcs') hcs ((hd' ▸ hm'').fold_eq hm'), hf] at hf'
    exact (Option.some_inj.mp (Except.ok.inj hf')).symm
  joined := by
    intro i cc hi hauto
    obtain ⟨cs, hcs, hf⟩ := h.flagged i cc hi hauto
    obtain ⟨c, hc, hm⟩ := configFindChannel_some hf
    obtain ⟨k, cc', hk, hcc', -, hkey⟩ := h.found cs hcs
    rw [hf, Except.ok.injEq, Option.some_inj] at hk
    rw [← hk, hi, Option.some_inj] at hcc'
    rw [hi, Option.some_inj] at hc
    refine ⟨cs, joined_iff.mpr hcs, hc ▸ hm, hcc' ▸ hkey, fun cs' hcs' hm' => ?_⟩
    exact joined_unique hd hcs' (joined_iff.mpr hcs) (hm'.fold_eq (hc ▸ hm))
  others := by
    intro i cc hi hauto
    obtain ⟨o, ho, -, hkey⟩ := h.other i cc hi hauto
    exact ⟨o, ho, hkey⟩

/-- The nick is settled the first time. -/
theorem rememberNick_again (defaultNick o : Option Str) (me : Str) : ∃ o',
    rememberNick defaultNick o (some me) = .ok o' ∧ rememberNick defaultNick o' (some me) = .ok o' := by
  cases defaultNick with
  | none => exact ⟨some me, rfl, rfl⟩
  | some d =>
      cases o with
      | some a => exact ⟨some me, rfl, rfl⟩
      | none =>
          by_cases hd : d = me
          · refine ⟨none, ?_, ?_⟩ <;> simp [rememberNick, hd]
          · exact ⟨some me, by simp [rememberNick, hd], rfl⟩

/-- **The channels of a configuration are those that were there, then those the user is on and that
were not; those the user is on are to be joined, with the keys they have, and an update that follows
changes nothing.**  An update only stops at the assertion of `config_find_channel`, where an entry has
no name. -/
theorem networkUpdateConfig_remembers {V : Type} (hg : Graph s)
    (hme : nameOf s meRef = some nick) (hd : DistinctChannels (casemapOf (some s.info)) s)
    (nc : NetworkConfig V) (defaultNick : Option Str) :
    Ensures (networkUpdateConfig (some s) nc defaultNick)
      (fun nc' => Remembers s nc.channels nc'.channels ∧
        networkUpdateConfig (some s) nc' defaultNick = .ok nc')
      fun e => e = .assertion ∧ ∃ cc ∈ nc.channels, cc.name = none := by
  obtain ⟨me, hmeHeap, hmeNick⟩ := Option.bind_eq_some_iff.mp hme
  obtain ⟨o', ho', hagain⟩ := rememberNick_again defaultNick nc.nick nick
  have hlive : ∀ c ∈ s.channels, ∃ cs, s.chanHeap c = some cs := fun c hc =>
    (hg.chan_live c hc).imp fun _ h => h.1
  have hstart : Remembered s.info nc.channels [] (nc.channels.map ChannelConfig.forget) :=
    Remembered.start
  have hrun := hstart.run (show ([] ++ s.channels.filterMap s.chanHeap).Pairwise _ from joined_different hg hd)
  simp only [networkUpdateConfig, NetworkState.nick_eq hmeHeap, ok_bind, hmeNick, ho',
    foldlM_chan hlive]
  refine hrun.bind fun channels h => ⟨h.remembers hd, ?_⟩
  rw [List.nil_append] at h
  simp only [hagain, ok_bind, h.again, pure_eq_ok]

end

/-- A network with a channel the user has left, and one with a key that is none any more. -/
def leftNetwork : NetworkConfig Unit where
  keyfile := .none
  groupname := none
  name := str "net"
  nick := none
  fullname := none
  username := none
  password := none
  implicit := false
  autoconnect := true
  ignoreFirstNick := false
  queueSpeed := 0
  reconnectInterval := 0
  channels := [⟨some (str "#a"), some (str "old"), true⟩, ⟨some (str "#C"), some (str "old"), false⟩]
  type := .iochannel
  autocmd := none

theorem networkUpdateConfig_remembers_left : ∃ s nc', twoJoined = .ok s ∧
    networkUpdateConfig (some s) leftNetwork (some (str "me")) = .ok nc' ∧
    nc'.channels = [⟨some (str "#a"), some (str "old"), false⟩, ⟨some (str "#C"), none, true⟩] ∧
    Remembers s leftNetwork.channels nc'.channels ∧
    networkUpdateConfig (some s) nc' (some (str "me")) = .ok nc' := by
  have run : (twoJoined >>= fun s => do
      let nc' ← networkUpdateConfig (some s) leftNetwork (some (str "me"))
      pure (decide (s.channels = [1] ∧ nameOf s meRef = some (str "me") ∧
        nc'.channels = [⟨some (str "#a"), some (str "old"), false⟩, ⟨some (str "#C"), none, true⟩]))) =
      .ok true := by decide +kernel
  obtain ⟨s, hs, run⟩ := bind_eq_ok run
  obtain ⟨nc', hnc', hr⟩ := bind_eq_ok run
  obtain ⟨hcs, hme, hch⟩ := of_decide_eq_true (Except.ok.inj hr)
  have hd : DistinctChannels (casemapOf (some s.info)) s := by
    intro c hc c' hc' _
    rw [hcs, List.mem_singleton] at hc hc'
    rw [hc, hc']
  have hn := twoJoined_named hs
  obtain ⟨h, hagain⟩ := (networkUpdateConfig_remembers hn.graph hme hd leftNetwork _).of_ok hnc'
  exact ⟨s, nc', hs, hnc', hch, h, hagain⟩

end Ctrlproxy.Config
