import Ctrlproxy.Admin.Settings

/-!
# Admin — what is set is shown

A value that a set function accepts is what the get function shows then, and after `UNSET` the setting is
shown as not set (`SetAgrees`, `UnsetAgrees`).  A number counts as a number here: `007` is shown as `7`.

`admin_user_set` has its condition inverted and stores no value but the empty one.  Numbers that are out of
range are accepted, and what is stored is that there is none.  Five set functions read `NULL`, and `-1`,
which stands for no number, is shown like a number by two get functions (`settings_agree_iff`).
-/

namespace Ctrlproxy.Admin
open Outcome

/-! ### Decimal numbers -/

/-- The number that digits are. -/
def digitsNumber (digits : Str) : ℕ := digits.foldl (fun n b => n * 10 + (b.1 - 48)) 0

/-- The number that a string is, with a sign or without. -/
def decimalNumber (v : Str) : Option ℤ :=
  let (negative, digits) := strtolSign v
  if digits ≠ [] ∧ ∀ b ∈ digits, 48 ≤ b.1 ∧ b.1 ≤ 57 then
    some (if negative then -(digitsNumber digits : ℤ) else digitsNumber digits)
  else none

example : decimalNumber (str "-0120") = some (-120) := by decide

section
variable {v t : Str} {b : Byte} {k m min max : ℤ} {n : ℕ}

theorem digit?_of_digit (h : 48 ≤ b.1 ∧ b.1 ≤ 57) : b.digit? = some (b.1 - 48) ∧ b.1 - 48 < 10 := by
  refine ⟨if_pos h, ?_⟩
  omega

/-- `strtol` reads digits to their end. -/
theorem digitsVal_eq (h : ∀ b ∈ t, 48 ≤ b.1 ∧ b.1 ≤ 57) (n : ℕ) :
    digitsVal 10 n t = (t.foldl (fun n b => n * 10 + (b.1 - 48)) n, []) := by
  induction t generalizing n with
  | nil => rfl
  | cons b t ih =>
      obtain ⟨hb, hlt⟩ := digit?_of_digit (h b List.mem_cons_self)
      rw [digitsVal, hb]
      dsimp only
      rw [if_pos hlt]
      exact ih (fun b hb => h b (List.mem_cons_of_mem _ hb)) _

theorem strtolBase_ten (t : Str) : strtolBase 10 t = (10, t) := by
  cases t with
  | nil => rfl
  | cons b t => cases t <;> rfl

theorem not_space_of_digit (h : 48 ≤ b.1 ∧ b.1 ≤ 57) : b.isSpace = false := by
  have h13 : ¬b.1 ≤ 13 := by omega
  have h32 : b.1 ≠ 32 := by omega
  simp [Byte.isSpace, h13, h32]

/-- A number has no space in front. -/
theorem number_head (h : decimalNumber v = some k) : ∃ b t, v = b :: t ∧ b.isSpace = false := by
  cases v with
  | nil => cases h
  | cons b t =>
      refine ⟨b, t, rfl, ?_⟩
      by_cases hminus : b = chr '-'
      · rw [hminus]
        rfl
      by_cases hplus : b = chr '+'
      · rw [hplus]
        rfl
      simp only [decimalNumber, strtolSign, if_neg hminus, if_neg hplus] at h
      split at h
      · next hdigits => exact not_space_of_digit (hdigits.2 b List.mem_cons_self)
      · cases h

/-- `strtol` reads a number. -/
theorem strtol_number (h : decimalNumber v = some k) : strtol v 10 = (clampLong k, []) := by
  obtain ⟨b, t, rfl, hb⟩ := number_head h
  have hsp : (b :: t).dropWhile Byte.isSpace = b :: t := List.dropWhile_cons_of_neg (by simp [hb])
  rcases hsign : strtolSign (b :: t) with ⟨negative, digits⟩
  simp only [decimalNumber, hsign] at h
  split at h
  · next hdigits =>
    obtain ⟨hne, hall⟩ := hdigits
    obtain ⟨d, s, rfl⟩ := List.exists_cons_of_ne_nil hne
    obtain ⟨hd, hlt⟩ := digit?_of_digit (hall d List.mem_cons_self)
    have hstarts : startsDigit 10 (d :: s) = true := by
      rw [startsDigit, hd]
      exact decide_eq_true hlt
    simp only [strtol, hsp, hsign, strtolBase_ten, hstarts, if_true, digitsVal_eq hall]
    rw [← Option.some.inj h]
    rfl
  · cases h

theorem clampLong_between (hmin : -2 ^ 63 < min) (hmax : max < 2 ^ 63 - 1) (k : ℤ) :
    (¬((clampLong k).1 < min ∨ (clampLong k).1 > max) ↔ min ≤ k ∧ k ≤ max) ∧
      (min ≤ k ∧ k ≤ max → (clampLong k).1 = k) := by
  unfold clampLong
  split_ifs <;> dsimp only <;> omega

/-- A number is read if it is between the bounds. -/
theorem gAsciiStringToSigned_number (h : decimalNumber v = some k) (hmin : -2 ^ 63 < min)
    (hmax : max < 2 ^ 63 - 1) :
    gAsciiStringToSigned v min max = if min ≤ k ∧ k ≤ max then some k else none := by
  obtain ⟨b, t, rfl, hb⟩ := number_head h
  obtain ⟨hiff, hval⟩ := clampLong_between hmin hmax k
  rw [gAsciiStringToSigned]
  simp only [strtol_number h, hb, Bool.false_eq_true, ne_eq, not_true_eq_false, false_or]
  by_cases hk : min ≤ k ∧ k ≤ max
  · rw [if_neg (hiff.mpr hk), if_pos hk, hval hk]
  · rw [if_neg hk, if_pos (not_not.mp fun hno => hk (hiff.mp hno))]

/-- What is read of the digits of a number is the number. -/
theorem digitsNumber_decimal (n : ℕ) : digitsNumber (decimal n) = n := by
  have h := digitsVal_decimal n
  rw [digitsVal_eq (fun b hb => mem_decimal hb)] at h
  exact congrArg Prod.fst h

theorem decimalNumber_decimalInt (k : ℤ) : decimalNumber (decimalInt k) = some k := by
  have hne : decimal k.natAbs ≠ [] := by
    obtain ⟨d, s, hd, -⟩ := decimal_cons k.natAbs
    rw [hd]
    exact List.cons_ne_nil _ _
  have hdigits : decimal k.natAbs ≠ [] ∧ ∀ b ∈ decimal k.natAbs, 48 ≤ b.1 ∧ b.1 ≤ 57 :=
    ⟨hne, fun b hb => mem_decimal hb⟩
  rw [decimalInt]
  split
  · next hneg =>
    have hsign : strtolSign (chr '-' :: decimal k.natAbs) = (true, decimal k.natAbs) := rfl
    simp only [decimalNumber, hsign, if_pos hdigits, digitsNumber_decimal, if_true]
    congr 1
    omega
  · next hpos =>
    simp only [decimalNumber, strtolSign_decimal, if_pos hdigits, digitsNumber_decimal, Bool.false_eq_true,
      if_false]
    congr 1
    omega

theorem decimalInt_inj {k m : ℤ} (h : decimalInt k = decimalInt m) : k = m := by
  have hk := decimalNumber_decimalInt k
  rw [h, decimalNumber_decimalInt] at hk
  exact (Option.some.inj hk).symm

end

/-! ### What is asked -/

/-- The kinds of the values of the settings. -/
inductive Kind where
  | text
  | number
  | boolean
  | choice

def Setting.kind : Setting → Kind
  | .adminLog | .autoAwayEnable | .autosave | .learnNetworkName | .learnNickserv => .boolean
  | .autoAwayClientLimit | .autoAwayTime | .logLevel | .maxWhoAge | .reportTimeOffset => .number
  | .reportTime => .choice
  | .adminUser | .autoAwayMessage | .autoAwayNick | .bind | .defaultClientCharset | .defaultNetwork
  | .logging | .motdFile | .password | .port | .replication | .defaultNick | .defaultUsername
  | .defaultFullname => .text

/-- The number that stands for a setting that is not set. -/
def Setting.unset : Setting → Option ℤ
  | .autoAwayClientLimit | .autoAwayTime => some (-1)
  | .maxWhoAge | .reportTimeOffset => some 0
  | _ => none

/-- A value comes back: a text as it is, and a number in digits. -/
def Setting.Returns (s : Setting) (v : Str) (shown : Option Str) : Prop :=
  match s.kind with
  | .text => shown = some v
  | .number => ∀ k, decimalNumber v = some k → s.unset ≠ some k → shown = some (decimalInt k)
  | .boolean | .choice => True

/-- What is accepted comes back, and no other setting changes. -/
def SetAgrees (gFileTest : Str → Bool) (s : Setting) (g : Global) (v : Str) : Prop :=
  ∀ r, s.set gFileTest g (some v) = .ok r → r.accepted = true →
    s.Returns v (s.get r.global) ∧ ∀ s', s' ≠ s → s'.get r.global = s'.get g

/-- The set function returns, and if `NULL` is accepted the setting is shown as not set. -/
def UnsetAgrees (gFileTest : Str → Bool) (s : Setting) (g : Global) : Prop :=
  ∃ r, s.set gFileTest g none = .ok r ∧ (r.accepted = true → s.get r.global = none)

/-- The values that come back. -/
def Setting.Settable (s : Setting) (v : Str) : Prop :=
  match s with
  | .adminUser => v = []
  | .autoAwayClientLimit => ∀ k, decimalNumber v = some k → -1 ≤ k ∧ k ≤ G_MAXINT
  | .autoAwayTime => ∀ k, decimalNumber v = some k → k = -1 ∨ 0 < k ∧ k ≤ G_MAXINT
  | .maxWhoAge | .reportTimeOffset => ∀ k, decimalNumber v = some k → 0 ≤ k ∧ k ≤ G_MAXINT
  | _ => True

/-- The settings that `UNSET` does not fail for. -/
def Setting.Unsettable : Setting → Prop
  -- the set functions read the value
  | .adminUser | .reportTime | .defaultNick | .defaultUsername | .defaultFullname => False
  -- the get functions show `-1`
  | .autoAwayClientLimit | .autoAwayTime => False
  | _ => True

section
variable {gFileTest : Str → Bool} {s : Setting} {g g' : Global} {v : Str} {out : List Str} {p : Place Global (Option Str)}

/-! ### SET -/

/-- Only what is stored matters. -/
theorem setAgrees_of_check
    (h : ∀ a out, s.check gFileTest g (some v) = .ok (.stores a out) → s.Returns v (s.shows a)) :
    SetAgrees gFileTest s g v := by
  intro r hset hr
  obtain ⟨a, hc, hget⟩ := get_accepted hset hr
  exact ⟨hget ▸ h a r.out hc, fun s' hs => set_other hset hs⟩

theorem set_of_check {value : Option Str} {a : s.Value} (hc : s.check gFileTest g value = .ok (.stores a out))
    (hw : s.place.write a g = some g') : s.set gFileTest g value = .ok ⟨true, g', out⟩ := by
  rw [set_eq, change, hc, ok_bind]
  simp only [hw]
  rfl

/-- Where something is stored, it has to come back. -/
theorem setAgrees_iff {a : s.Value} (hc : s.check gFileTest g (some v) = .ok (.stores a out))
    (hw : s.place.write a g = some g') : SetAgrees gFileTest s g v ↔ s.Returns v (s.shows a) := by
  constructor
  · intro h
    have hset := set_of_check hc hw
    obtain ⟨a', hc', hget⟩ := get_accepted hset rfl
    cases hc.symm.trans hc'
    exact hget ▸ (h _ hset rfl).1
  · intro h
    refine setAgrees_of_check fun a' out' hc' => ?_
    cases hc.symm.trans hc'
    exact h

/-! ### Texts -/

theorem word_stores {what : Str} {a : Option Str} (h : word what g (some v) = .ok (.stores a out)) :
    a = some v := by
  simp only [word] at h
  split_ifs at h <;> cases h
  rfl

theorem motdFile_stores {a : Option Str} (h : motdFileCheck gFileTest g (some v) = .ok (.stores a out)) :
    a = some v := by
  rw [motdFileCheck] at h
  split_ifs at h <;> cases h
  rfl

theorem replication_stores {a : Option Str} (h : replicationCheck g (some v) = .ok (.stores a out)) :
    a = some v := by
  rw [replicationCheck] at h
  split at h <;> cases h
  rfl

theorem defaultFullname_stores {a : Option Str}
    (h : defaultFullnameCheck g (some v) = .ok (.stores a out)) : a = some v := by
  simp only [defaultFullnameCheck] at h
  split_ifs at h <;> cases h
  rfl

/-- The condition of `admin_user_set` is inverted: the empty text comes back, and no other. -/
theorem adminUser_agrees : SetAgrees gFileTest .adminUser g v ↔ v = [] := by
  refine (setAgrees_iff rfl rfl).trans ?_
  simp only [Setting.Returns, Setting.kind, Setting.shows]
  cases v with
  | nil => exact iff_of_true rfl rfl
  | cons b v => exact iff_of_false (Option.some_ne_none _).symm (List.cons_ne_nil b v)

/-! ### Numbers -/

/-- What is stored for a number. -/
theorem stored_number {k min unset : ℤ} (hk : decimalNumber v = some k) (hmin : -2 ^ 63 < min) :
    ((some v).bind (gAsciiStringToSigned · min G_MAXINT)).getD unset =
      if min ≤ k ∧ k ≤ G_MAXINT then k else unset := by
  rw [Option.bind_some, gAsciiStringToSigned_number hk hmin (by decide)]
  split_ifs <;> rfl

theorem numName_eq {n k : ℤ} : numName n = some (decimalInt k) ↔ n = k ∧ n ≠ 0 := by
  by_cases hn : n = 0
  · rw [numName, if_pos hn]
    exact iff_of_false (Option.some_ne_none _).symm fun h => h.2 hn
  · rw [numName, if_neg hn, Option.some_inj]
    exact ⟨fun h => ⟨decimalInt_inj h, hn⟩, fun h => congrArg decimalInt h.1⟩

theorem autoAwayClientLimit_agrees : SetAgrees gFileTest .autoAwayClientLimit g v ↔
    ∀ k, decimalNumber v = some k → -1 ≤ k ∧ k ≤ G_MAXINT := by
  refine (setAgrees_iff rfl rfl).trans (forall₂_congr fun k hk => ?_)
  simp only [Setting.shows, stored_number hk (show -2 ^ 63 < (-1 : ℤ) by decide), Setting.unset,
    Option.some_inj, ne_eq]
  constructor
  · intro h
    by_contra hout
    rw [if_neg hout] at h
    have hne : ¬-1 = k := by
      rintro rfl
      exact hout ⟨le_refl _, by decide⟩
    exact hne (decimalInt_inj (h hne))
  · intro hin _
    rw [if_pos hin]

theorem autoAwayTime_agrees : SetAgrees gFileTest .autoAwayTime g v ↔
    ∀ k, decimalNumber v = some k → k = -1 ∨ 0 < k ∧ k ≤ G_MAXINT := by
  refine (setAgrees_iff rfl rfl).trans (forall₂_congr fun k hk => ?_)
  simp only [Setting.shows, stored_number hk (show -2 ^ 63 < (-1 : ℤ) by decide), Setting.unset, numName_eq,
    Option.some_inj, ne_eq]
  split_ifs <;> omega

/-- The settings whose number begins with zero. -/
theorem numberFrom_zero_agrees {k : ℤ} (hk : decimalNumber v = some k) :
    (some (0 : ℤ) ≠ some k →
      numName (((some v).bind (gAsciiStringToSigned · 0 G_MAXINT)).getD 0) = some (decimalInt k)) ↔
        0 ≤ k ∧ k ≤ G_MAXINT := by
  simp only [stored_number hk (show -2 ^ 63 < (0 : ℤ) by decide), numName_eq, Option.some_inj, ne_eq]
  have hmax : (0 : ℤ) ≤ G_MAXINT := by decide
  split_ifs <;> omega

theorem logLevel_returns {a : ℤ} (h : logLevelCheck g (some v) = .ok (.stores a out)) :
    Setting.Returns .logLevel v (some (decimalInt a)) := by
  intro k hk _
  simp only [logLevelCheck, gAsciiStringToSigned_number hk (show -2 ^ 63 < (0 : ℤ) by decide)
    (show (5 : ℤ) < 2 ^ 63 - 1 by decide)] at h
  split_ifs at h <;> cases h
  rfl

/-- SET agrees with the get functions where the value is settable, and nowhere else. -/
theorem setAgrees_iff_settable : SetAgrees gFileTest s g v ↔ s.Settable v := by
  cases s with
  | adminUser => exact adminUser_agrees
  | autoAwayClientLimit => exact autoAwayClientLimit_agrees
  | autoAwayTime => exact autoAwayTime_agrees
  | maxWhoAge | reportTimeOffset =>
      exact (setAgrees_iff rfl rfl).trans (forall₂_congr fun k hk => numberFrom_zero_agrees hk)
  | logLevel =>
      refine iff_of_true (setAgrees_of_check fun a out h => ?_) trivial
      exact logLevel_returns (show logLevelCheck g (some v) = .ok (.stores a out) from h)
  | adminLog | autoAwayEnable | autosave | learnNetworkName | learnNickserv | reportTime =>
      exact iff_of_true (setAgrees_of_check fun _ _ _ => trivial) trivial
  | autoAwayMessage | autoAwayNick | defaultClientCharset | bind | defaultNetwork | password | port =>
      refine iff_of_true (setAgrees_of_check fun a out h => ?_) trivial
      cases h
      rfl
  | logging =>
      refine iff_of_true (setAgrees_of_check fun a out h => ?_) trivial
      cases h
  | motdFile =>
      refine iff_of_true (setAgrees_of_check fun a out h => ?_) trivial
      exact motdFile_stores (show motdFileCheck gFileTest g (some v) = .ok (.stores a out) from h)
  | replication =>
      refine iff_of_true (setAgrees_of_check fun a out h => ?_) trivial
      exact replication_stores h
  | defaultNick =>
      refine iff_of_true (setAgrees_of_check fun a out h => ?_) trivial
      exact word_stores (show word (str "Nick name") g (some v) = .ok (.stores a out) from h)
  | defaultUsername =>
      refine iff_of_true (setAgrees_of_check fun a out h => ?_) trivial
      exact word_stores (show word (str "Username") g (some v) = .ok (.stores a out) from h)
  | defaultFullname =>
      refine iff_of_true (setAgrees_of_check fun a out h => ?_) trivial
      exact defaultFullname_stores (show defaultFullnameCheck g (some v) = .ok (.stores a out) from h)

/-! ### UNSET -/

/-- A set function that refuses `NULL`, or stores what is shown as not set. -/
theorem unsetAgrees_of_check {c : Check s.Value} (hc : s.check gFileTest g none = .ok c)
    (h : ∀ a out, c = .stores a out → s.shows a = none) : UnsetAgrees gFileTest s g := by
  obtain ⟨r, hr⟩ : ∃ r, s.set gFileTest g none = .ok r := by
    rw [set_eq, change, hc, ok_bind]
    cases c with
    | refused out => exact ⟨_, rfl⟩
    | stores a out =>
        dsimp only
        split <;> exact ⟨_, rfl⟩
  refine ⟨r, hr, fun haccepted => ?_⟩
  obtain ⟨a, ha, hget⟩ := get_accepted hr haccepted
  rw [hget]
  exact h a r.out (Except.ok.inj (hc.symm.trans ha))

/-- A set function that reads `NULL`. -/
theorem not_unsetAgrees_of_null (hc : s.check gFileTest g none = .error .null) :
    ¬UnsetAgrees gFileTest s g := by
  rintro ⟨r, hr, -⟩
  rw [set_eq, change, hc] at hr
  cases hr

/-- A set function that stores what is shown as a value. -/
theorem not_unsetAgrees_of_shown {a : s.Value} (hc : s.check gFileTest g none = .ok (.stores a out))
    (hw : s.place.write a g = some g') (ha : s.shows a ≠ none) : ¬UnsetAgrees gFileTest s g := by
  rintro ⟨r, hr, hget⟩
  cases (set_of_check hc hw).symm.trans hr
  obtain ⟨a', ha', hshown⟩ := get_accepted hr rfl
  cases hc.symm.trans ha'
  exact ha (hshown.symm.trans (hget rfl))

theorem replication_unset : UnsetAgrees gFileTest .replication g := by
  cases hb : replFindBackend g.backends none with
  | none =>
      refine unsetAgrees_of_check (by rw [Setting.check, replicationCheck, hb]) fun a out h => ?_
      cases h
  | some b =>
      refine unsetAgrees_of_check (by rw [Setting.check, replicationCheck, hb]) fun a out h => ?_
      cases h
      rfl

/-- UNSET agrees with the get functions for the settings that are unsettable, and no others. -/
theorem unsetAgrees_iff_unsettable : UnsetAgrees gFileTest s g ↔ s.Unsettable := by
  cases s with
  | adminUser | reportTime | defaultNick | defaultUsername | defaultFullname =>
      exact iff_of_false (not_unsetAgrees_of_null rfl) id
  | autoAwayClientLimit => exact iff_of_false (not_unsetAgrees_of_shown rfl rfl (Option.some_ne_none _)) id
  | autoAwayTime => exact iff_of_false (not_unsetAgrees_of_shown rfl rfl (Option.some_ne_none _)) id
  | replication => exact iff_of_true replication_unset trivial
  | adminLog | autoAwayEnable | autosave | learnNetworkName | learnNickserv | logLevel | logging | motdFile =>
      refine iff_of_true (unsetAgrees_of_check rfl fun a out h => ?_) trivial
      cases h
  | autoAwayMessage | autoAwayNick | defaultClientCharset | bind | defaultNetwork | password | port
  | maxWhoAge | reportTimeOffset =>
      refine iff_of_true (unsetAgrees_of_check rfl fun a out h => ?_) trivial
      cases h
      rfl

end

/-- **The settings agree** for the values that are settable, and after `UNSET` for the settings that are
unsettable. -/
theorem settings_agree_iff (gFileTest : Str → Bool) (s : Setting) (g : Global) :
    (∀ v, SetAgrees gFileTest s g v ↔ s.Settable v) ∧ (UnsetAgrees gFileTest s g ↔ s.Unsettable) :=
  ⟨fun _ => setAgrees_iff_settable, unsetAgrees_iff_unsettable⟩

/-- A configuration in which no text is set. -/
def unsetGlobal : Global where
  config := ⟨false, none, none, none, none, none, none, false, none, .never, 0, 0, [], false, false,
    ⟨-1, -1, false, none, none⟩, none⟩
  currentLogLevel := 3
  backends := [str "none"]

/-- `SET admin-user joe` is accepted, and no administrator is set; `UNSET admin-user` reads `NULL`. -/
theorem adminUser_forgotten :
    (∃ r, Setting.set (fun _ => false) .adminUser unsetGlobal (some (str "joe")) = .ok r ∧
      r.accepted = true ∧ Setting.get .adminUser r.global = none) ∧
    Setting.set (fun _ => false) .adminUser unsetGlobal none = .error .null ∧
    ¬ ∀ (gFileTest : Str → Bool) (s : Setting) (g : Global),
      (∀ v, SetAgrees gFileTest s g v) ∧ UnsetAgrees gFileTest s g := by
  refine ⟨⟨_, rfl, rfl, rfl⟩, rfl, fun hall => ?_⟩
  have hjoe := (hall (fun _ => false) .adminUser unsetGlobal).1 (str "joe")
  exact absurd (adminUser_agrees.mp hjoe) (by decide)

end Ctrlproxy.Admin
