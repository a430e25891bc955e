import Ctrlproxy.Base.Announce
import Ctrlproxy.Client.Channel
import Ctrlproxy.State.Totality

/-!
# Client — looking up what was announced

The tokens of a 005 are the server's.  Every token has to have the value its key needs (`TokenSafe`),
or the parser itself stops.  Two of them are parsed and do their harm later: `CHANTYPES` without a
value, and `CHANMODES` with less than four groups, the vector of which is read at its `NULL`.

`is_prefix`, `get_mode_by_prefix`, `get_prefix_by_mode` and `network_info_string` are total as they
stand.
-/

namespace Ctrlproxy
open Outcome

/-- `network_chanmode_type` at a character, `none` being the terminator: `strchr` finds it in every
group. -/
def networkChanmodeTypeAt (m : Option Byte) (n : NetworkInfo) : Except Fault ChanmodeType :=
  match m with
  | some m => networkChanmodeType m n
  | none => match n.chanmodes.getD default_chanmodes with
      | [] => .error .null
      | _ :: _ => .ok .nicklist

/-- The lookups return, whatever they are asked for. -/
structure Answerable (i : NetworkInfo) : Prop where
  chanmodeType : ∀ m, ∃ t, networkChanmodeTypeAt m i = .ok t
  channelname : ∀ name, ∃ b, isChannelname name i = .ok b
  /-- A mode table has no place for `0xFF`. -/
  prefixOf : ∀ modes f, getPrefixFromModes i modes = .error f → f = .modeIndex

section
variable {c m : Byte} {ts : List ChanmodeType} {groups tokens : List Str} {i : NetworkInfo} {v : Str}

/-! ### Groups -/

theorem chanmodeTypeFrom_total (h : ts.length ≤ groups.length) (m : Byte) :
    ∃ t, chanmodeTypeFrom m ts groups = .ok t := by
  induction ts generalizing groups with
  | nil => exact ⟨.unknown, rfl⟩
  | cons t ts ih =>
      cases groups with
      | nil => simp at h
      | cons g groups =>
          rw [chanmodeTypeFrom]
          split
          · exact ⟨t, rfl⟩
          · exact ih (Nat.le_of_succ_le_succ h)

/-- A letter that is in none of too few groups is looked for in the `NULL` behind them. -/
theorem chanmodeTypeFrom_null (h : groups.length < ts.length) (hm : ∀ g ∈ groups, m ∉ g) :
    chanmodeTypeFrom m ts groups = .error .null := by
  induction ts generalizing groups with
  | nil => simp at h
  | cons t ts ih =>
      cases groups with
      | nil => rfl
      | cons g groups =>
          rw [chanmodeTypeFrom, if_neg (hm g List.mem_cons_self)]
          exact ih (Nat.lt_of_succ_lt_succ h) fun g hg => hm g (List.mem_cons_of_mem _ hg)

/-- A separator ends a piece as long as there are pieces left to fill. -/
theorem piecesN_length (c : Byte) (n : ℕ) (v : Str) :
    (piecesN c (n + 1) v).length = min n (v.count c) + 1 := by
  induction n generalizing v with
  | zero => simp [piecesN]
  | succ n ih =>
      by_cases hc : c ∈ v
      · obtain ⟨p, s, rfl, hp⟩ := List.eq_append_cons_of_mem hc
        rw [piecesN_append hp, List.length_cons, ih, List.count_append, List.count_cons_self,
          List.count_eq_zero_of_not_mem hp]
        omega
      · have hdrop : v.dropWhile (· ≠ c) = [] := dropWhile_ne_eq_nil.mpr hc
        rw [piecesN, hdrop, List.count_eq_zero_of_not_mem hc]
        simp

/-- A value with few separators is split at all of them. -/
theorem not_mem_piecesN {n : ℕ} (h : v.count c ≤ n) : ∀ w ∈ piecesN c (n + 1) v, c ∉ w := by
  induction n generalizing v with
  | zero =>
      rw [piecesN, List.forall_mem_singleton]
      exact List.count_eq_zero.mp (Nat.le_zero.mp h)
  | succ n ih =>
      by_cases hc : c ∈ v
      · obtain ⟨p, s, rfl, hp⟩ := List.eq_append_cons_of_mem hc
        rw [List.count_append, List.count_cons_self, List.count_eq_zero_of_not_mem hp] at h
        rw [piecesN_append hp]
        exact List.forall_mem_cons.mpr ⟨hp, ih (by omega)⟩
      · have hdrop : v.dropWhile (· ≠ c) = [] := dropWhile_ne_eq_nil.mpr hc
        rw [piecesN, hdrop]
        exact List.forall_mem_singleton.mpr hc

/-- The groups of a value are enough exactly when it has three commas. -/
theorem chanmodeTypeFrom_gStrsplitN (v : Str) :
    (∀ m, ∃ t, chanmodeTypeFrom m [.nicklist, .setting, .optSetting, .bool]
      (gStrsplitN v (chr ',') 4) = .ok t) ↔ 3 ≤ v.count (chr ',') := by
  by_cases hv : v = []
  · subst hv
    refine iff_of_false (fun h => ?_) (by decide)
    obtain ⟨t, ht⟩ := h (chr ',')
    cases ht
  · rw [gStrsplitN, if_neg hv]
    have hlength : (piecesN (chr ',') 4 v).length = min 3 (v.count (chr ',')) + 1 :=
      piecesN_length (chr ',') 3 v
    constructor
    · intro h
      by_contra hfew
      have hnone : ∀ g ∈ piecesN (chr ',') 4 v, chr ',' ∉ g := not_mem_piecesN (by omega)
      have hshort : (piecesN (chr ',') 4 v).length < 4 := by omega
      obtain ⟨t, ht⟩ := h (chr ',')
      rw [chanmodeTypeFrom_null hshort hnone] at ht
      cases ht
    · intro hmany m
      have hlong : 4 ≤ (piecesN (chr ',') 4 v).length := by omega
      refine chanmodeTypeFrom_total ?_ m
      exact hlong

/-! ### Tables -/

theorem firstPrefix_fault {modes : Modes} {t : List (Byte × Byte)} {f : Fault}
    (h : firstPrefix modes t = .error f) : f = .modeIndex := by
  induction t with
  | nil => cases h
  | cons e t ih =>
      obtain ⟨p, m⟩ := e
      simp only [firstPrefix, modeSlot] at h
      split at h
      · simp only [bind, Except.bind] at h
        split at h
        · cases h
        · exact ih h
      · cases h
        rfl

theorem getPrefixFromModes_fault {modes : Modes} {f : Fault}
    (h : getPrefixFromModes i modes = .error f) : f = .modeIndex := by
  unfold getPrefixFromModes at h
  split at h
  · cases h
  · exact firstPrefix_fault h

/-! ### After the tokens -/

/-- The groups are those of the last token about them. -/
theorem chanmodes_last (h : networkInfoParseAll networkInfoInit tokens = .ok i) :
    i.chanmodes = (lastValue .chanmodes tokens).join.map fun v => gStrsplitN v (chr ',') 4 := by
  refine networkInfoParseAll_last
    (P := fun x n => n.chanmodes = x.join.map fun v => gStrsplitN v (chr ',') 4)
    (by decide) rfl ?_ ?_ h
  · rintro n v n' happly
    cases v with
    | none =>
        cases happly
        rfl
    | some v =>
        simp only [applyInfoKey] at happly
        cases happly
        split
        · unfold checkChanmodesInconsistency
          split <;> rfl
        · rfl
  · rintro n n' x hP hkeep
    exact (hkeep .chanmodes List.mem_cons_self).trans hP

theorem answerable_iff (h : networkInfoParseAll networkInfoInit tokens = .ok i) :
    Answerable i ↔ lastValue (.text .chantypes) tokens ≠ some none ∧
      ∀ v, lastValue .chanmodes tokens = some (some v) → 3 ≤ v.count (chr ',') := by
  have htypes := chantypes_none_iff h
  have hgroups := chanmodes_last h
  constructor
  · rintro ⟨hmode, hchan, -⟩
    refine ⟨fun hlast => ?_, fun v hv => ?_⟩
    · obtain ⟨b, hb⟩ := hchan []
      rw [isChannelname, htypes.mpr hlast] at hb
      cases hb
    · rw [hv] at hgroups
      refine (chanmodeTypeFrom_gStrsplitN v).mp fun m => ?_
      obtain ⟨t, ht⟩ := hmode (some m)
      rw [networkChanmodeTypeAt, networkChanmodeType, hgroups] at ht
      exact ⟨t, ht⟩
  · rintro ⟨hlast, hcommas⟩
    have hmode : ∀ m, ∃ t, networkChanmodeType m i = .ok t := by
      intro m
      rw [networkChanmodeType, hgroups]
      cases hv : (lastValue .chanmodes tokens).join with
      | none => exact chanmodeTypeFrom_total (by decide) m
      | some v =>
          have hmany := hcommas v (Option.join_eq_some_iff.mp hv)
          exact (chanmodeTypeFrom_gStrsplitN v).mpr hmany m
    refine ⟨fun m => ?_, fun name => ?_, fun modes f hf => getPrefixFromModes_fault hf⟩
    · cases m with
      | some m => exact hmode m
      | none =>
          obtain ⟨t, ht⟩ := hmode (chr ',')
          rw [networkChanmodeType] at ht
          rw [networkChanmodeTypeAt]
          cases hg : i.chanmodes.getD default_chanmodes with
          | nil =>
              rw [hg] at ht
              cases ht
          | cons g gs => exact ⟨.nicklist, rfl⟩
    · obtain ⟨t, ht⟩ := Option.ne_none_iff_exists'.mp fun e => hlast (htypes.mp e)
      rw [isChannelname, ht]
      cases name with
      | nil => exact ⟨true, rfl⟩
      | cons b name => exact ⟨_, rfl⟩

/-- Tokens are parsed exactly when each has the value its key needs. -/
theorem networkInfoParseAll_iff (n : NetworkInfo) :
    (∃ i, networkInfoParseAll n tokens = .ok i) ↔ ∀ w ∈ tokens, TokenSafe w := by
  induction tokens generalizing n with
  | nil => exact ⟨fun _ => nofun, fun _ => ⟨n, rfl⟩⟩
  | cons w tokens ih =>
      rw [networkInfoParseAll, List.foldlM_cons, List.forall_mem_cons]
      constructor
      · rintro ⟨i, hi⟩
        obtain ⟨n', hw, hrest⟩ := bind_eq_ok hi
        refine ⟨⟨fun hk hval => ?_, fun hk hval => ?_⟩, (ih n').mp ⟨i, hrest⟩⟩
        · rcases hk with hk | hk | hk
          all_goals
            rw [networkInfoParse, hk, hval] at hw
            cases hw
        · rw [networkInfoParse, hk, hval] at hw
          cases hw
      · rintro ⟨hsafe, hrest⟩
        have hw := networkInfoParse_total hsafe n
        cases hn : networkInfoParse n w with
        | error f =>
            rw [hn] at hw
            exact hw.elim
        | ok n' => exact (ih n').mpr hrest

/-- The parser and the lookups return exactly when every token has the value its key needs, the last
`CHANTYPES` has one, and the last `CHANMODES` has four groups. -/
theorem lookups_total_iff :
    (∃ i, networkInfoParseAll networkInfoInit tokens = .ok i ∧ Answerable i) ↔
      (∀ w ∈ tokens, TokenSafe w) ∧ lastValue (.text .chantypes) tokens ≠ some none ∧
        ∀ v, lastValue .chanmodes tokens = some (some v) → 3 ≤ v.count (chr ',') := by
  constructor
  · rintro ⟨i, hi, hanswer⟩
    exact ⟨(networkInfoParseAll_iff _).mp ⟨i, hi⟩, (answerable_iff hi).mp hanswer⟩
  · rintro ⟨hsafe, hlast⟩
    obtain ⟨i, hi⟩ := (networkInfoParseAll_iff networkInfoInit).mpr hsafe
    exact ⟨i, hi, (answerable_iff hi).mpr hlast⟩

/-- Two groups are announced, and a letter of neither is looked up. -/
theorem two_groups_read_beyond :
    ∃ i, networkInfoParseAll networkInfoInit [str "CHANMODES=b,k"] = .ok i ∧
      networkChanmodeTypeAt (some (chr 'n')) i = .error .null :=
  ⟨_, rfl, by decide⟩

end

end Ctrlproxy
