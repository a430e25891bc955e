import Ctrlproxy.State.ModeBounds
import Ctrlproxy.State.Numerics

/-!
# State — mode strings

`mode2string` prints the slots of a table in order, behind one plus; `string2mode` reads any sequence of
signs and letters, where the last place of a letter counts.  A table of letters is read back from what is
printed for it, so printing what was read is a canonical form (`canonicalMode`), whose letters are those
that the string lists (`Lists`), in order and each once.
-/

namespace Ctrlproxy
open Outcome

/-! ### Printing and reading -/

/-- A mode set over characters that a mode string can hold. -/
def ModeLetters (m : Modes) : Prop :=
  ∀ i, m i = true → i.1 ≠ 0 ∧ i.1 ≠ (chr '+').1 ∧ i.1 ≠ (chr '-').1

/-- `g_strdup_printf("+%s", ret)`, or `NULL` where `ret` is empty. -/
def printedModes (l : Str) : Option Str := if l = [] then none else some (chr '+' :: l)

section
variable {m : Modes} {w : Str} {b : Byte}

theorem ModeLetters.nul (h : ModeLetters m) : m ⟨0, by decide⟩ = false :=
  Bool.eq_false_iff.mpr fun h0 => (h _ h0).1 rfl

theorem mode2string_eq (h : ModeLetters m) : mode2string m = printedModes (mode2stringBody m) := by
  rw [mode2string, h.nul, printedModes]
  cases mode2stringBody m <;> simp

/-- A letter is set where it is printed. -/
theorem ModeLetters.mem_body (h : ModeLetters m) (i : Fin MAXMODES) :
    m i = true ↔ ∃ b ∈ mode2stringBody m, b.1 = i.1 := by
  constructor
  · intro hi
    have hpos : 0 < i.1 := Nat.pos_of_ne_zero (h i hi).1
    exact ⟨⟨i.1, hpos, Nat.lt_succ_of_lt i.2⟩, mem_mode2stringBody.mpr ⟨i, hi, rfl⟩, rfl⟩
  · rintro ⟨b, hb, hbi⟩
    obtain ⟨j, hj, hjb⟩ := mem_mode2stringBody.mp hb
    rwa [Fin.ext (hjb.trans hbi)] at hj

/-- What is printed are letters. -/
theorem ModeLetters.body (h : ModeLetters m) (hb : b ∈ mode2stringBody m) :
    b ≠ chr '+' ∧ b ≠ chr '-' ∧ b.1 < MAXMODES := by
  obtain ⟨i, hi, hib⟩ := mem_mode2stringBody.mp hb
  obtain ⟨-, hp, hn⟩ := h i hi
  refine ⟨?_, ?_, hib ▸ i.2⟩
  · rintro rfl
    exact hp hib
  · rintro rfl
    exact hn hib

/-- Characters without a sign are set one by one. -/
theorem changeModes_set (hw : ∀ b ∈ w, b ≠ chr '+' ∧ b ≠ chr '-' ∧ b.1 < MAXMODES) (m : Modes) :
    changeModes true m w = .ok fun j => m j || decide (∃ b ∈ w, b.1 = j.1) := by
  induction w generalizing m with
  | nil => simp [changeModes]
  | cons b w ih =>
      obtain ⟨h₁, h₂, h₃⟩ := hw b List.mem_cons_self
      rw [changeModes, if_neg h₁, if_neg h₂, modesChangeMode, modeSlot, dif_pos h₃]
      simp only [ok_bind, pure_eq_ok]
      rw [ih fun c hc => hw c (List.mem_cons_of_mem _ hc)]
      congr 1
      funext j
      by_cases hj : j.1 = b.1
      · have : j = ⟨b.1, h₃⟩ := Fin.ext hj
        simp [ModeArray.set, this]
      · have hne : j ≠ ⟨b.1, h₃⟩ := fun e => hj (congrArg Fin.val e)
        have hne' : ¬b.1 = j.1 := fun e => hj e.symm
        simp [ModeArray.set, hne, hne']

/-- A mode set is read back from what is printed for it. -/
theorem string2mode_mode2string (h : ModeLetters m) : string2mode (mode2string m) = .ok (m, true) := by
  have hset : m = fun j => modesClear j || decide (∃ b ∈ mode2stringBody m, b.1 = j.1) := by
    funext j
    rw [Bool.eq_iff_iff, h.mem_body j]
    simp [modesClear]
  rw [mode2string_eq h, printedModes]
  split_ifs with hnil
  · have hclear : m = modesClear := by
      rw [hset, hnil]
      funext j
      simp [modesClear]
    rw [hclear]
    rfl
  · simp only [string2mode, ne_eq, not_true_eq_false, false_and, if_false, changeModes, if_true]
    rw [changeModes_set fun b hb => h.body hb, ← hset]
    rfl

/-- The empty set is the one that is printed as `NULL`. -/
theorem mode2string_eq_none (h : ModeLetters m) : mode2string m = none ↔ m = modesClear := by
  constructor
  · intro e
    have := string2mode_mode2string h
    rw [e, string2mode, Except.ok.injEq, Prod.mk.injEq] at this
    exact this.1.symm
  · rintro rfl
    rfl

/-! ### Canonical forms -/

/-- Reading a mode string and printing what was read. -/
def canonicalMode (w : Option Str) : Except Fault (Option Str) := do
  let (modes, _) ← string2mode w
  pure (mode2string modes)

/-- A text has the letters that a mode string lists, in order and each once. -/
structure Canonical (w l : Str) : Prop where
  sorted : l.Pairwise fun a b => a.1 < b.1
  mem : ∀ b, b ∈ l ↔ Lists w b

theorem Canonical.unique {l l' : Str} (h : Canonical w l) (h' : Canonical w l') : l = l' := by
  have nodup : ∀ {l : Str}, (l.Pairwise fun a b => a.1 < b.1) → l.Nodup := by
    intro l hl
    refine hl.imp fun {a b} hab => ?_
    rintro rfl
    exact Nat.lt_irrefl _ hab
  have hperm : l.Perm l' := (List.perm_ext_iff_of_nodup (nodup h.sorted) (nodup h'.sorted)).mpr
    fun b => (h.mem b).trans (h'.mem b).symm
  exact hperm.eq_of_pairwise (fun a b _ _ hab hba => absurd hab (Nat.lt_asymm hba)) h.sorted h'.sorted

theorem flagOf_iff : flagOf m b = true ↔ ∃ i, m i = true ∧ i.1 = b.1 := by
  by_cases hb : b.1 < MAXMODES
  · have hslot : modeSlot b = .ok ⟨b.1, hb⟩ := dif_pos hb
    rw [flagOf, hslot]
    refine ⟨fun h => ⟨_, h, rfl⟩, ?_⟩
    rintro ⟨i, hi, e⟩
    rwa [show i = ⟨b.1, hb⟩ from Fin.ext e] at hi
  · have hslot : modeSlot b = .error .modeIndex := dif_neg hb
    rw [flagOf, hslot]
    refine ⟨fun h => absurd h Bool.false_ne_true, ?_⟩
    rintro ⟨i, -, e⟩
    exact absurd (e ▸ i.2) hb

theorem ListedBy.letters (h : ListedBy w m) : ModeLetters m := by
  intro i hi
  have hpos : i.1 ≠ 0 := by
    intro e
    rw [show i = ⟨0, by decide⟩ from Fin.ext e, h.nul] at hi
    cases hi
  have hl := (h.flag ⟨i.1, Nat.pos_of_ne_zero hpos, Nat.lt_succ_of_lt i.2⟩).mp (flagOf_iff.mpr ⟨i, hi, rfl⟩)
  exact ⟨hpos, fun e => hl.letter.1 (Subtype.ext e), fun e => hl.letter.2 (Subtype.ext e)⟩

theorem ListedBy.canonical (h : ListedBy w m) : Canonical w (mode2stringBody m) where
  sorted := mode2stringBody_sorted m
  mem := fun b => by rw [mem_mode2stringBody, ← flagOf_iff, h.flag]

/-- A string that starts with a sign is taken for a mode change. -/
theorem string2mode_signed (hs : w.head? = some (chr '+') ∨ w.head? = some (chr '-'))
    {r : Modes × Bool} (h : string2mode (some w) = .ok r) : r.2 = true := by
  cases w with
  | nil => simp at hs
  | cons b w =>
      rw [string2mode, if_neg] at h
      · obtain ⟨modes, -, e⟩ := bind_eq_ok h
        cases e
        rfl
      · rintro ⟨hp, hn⟩
        rcases hs with e | e
        · exact hp (Option.some.inj e)
        · exact hn (Option.some.inj e)

/-- **Mode strings go there and back.**  A set of letters is read back from its string, and the empty set
has none.  A string that starts with a sign sets the letters that are last behind a plus, so that what is
printed then has just these, in order, and is its own canonical form. -/
theorem modeStrings_canonical :
    (∀ m, ModeLetters m → string2mode (mode2string m) = .ok (m, true) ∧
      (mode2string m = none ↔ m = modesClear)) ∧
    ∀ w : Str, w.head? = some (chr '+') ∨ w.head? = some (chr '-') → byteFF ∉ w →
      ∃ m l, string2mode (some w) = .ok (m, true) ∧
        (∀ i, m i = true ↔ ∃ b, b.1 = i.1 ∧ Lists w b) ∧
        Canonical w l ∧ canonicalMode (some w) = .ok (printedModes l) ∧
        canonicalMode (printedModes l) = .ok (printedModes l) := by
  refine ⟨fun m h => ⟨string2mode_mode2string h, mode2string_eq_none h⟩, fun w hs hFF => ?_⟩
  obtain ⟨⟨m, ok⟩, hr, hl⟩ := string2mode_listed (w := w) fun h => hFF h.2
  obtain rfl : ok = true := string2mode_signed hs hr
  have hletters := hl.letters
  have hprint := mode2string_eq hletters
  refine ⟨m, mode2stringBody m, hr, fun i => ?_, hl.canonical, ?_, ?_⟩
  · rw [hletters.mem_body]
    constructor
    · rintro ⟨b, hb, hbi⟩
      exact ⟨b, hbi, (hl.canonical.mem b).mp hb⟩
    · rintro ⟨b, hbi, hb⟩
      exact ⟨b, (hl.canonical.mem b).mpr hb, hbi⟩
  · rw [canonicalMode, hr, ok_bind, ← hprint]
    rfl
  · rw [canonicalMode, ← hprint, string2mode_mode2string hletters]
    rfl

theorem modeStrings_canonical_repeated :
    string2mode (mode2string (ModeArray.set modesClear ⟨(chr 'i').1, by decide⟩ true)) =
      .ok (ModeArray.set modesClear ⟨(chr 'i').1, by decide⟩ true, true) ∧
    ∃ l, Canonical (str "-t+tni-n") l ∧
      canonicalMode (some (str "-t+tni-n")) = .ok (printedModes l) := by
  have hletters : ModeLetters (ModeArray.set modesClear ⟨(chr 'i').1, by decide⟩ true) := by
    intro i hi
    have : i = ⟨(chr 'i').1, by decide⟩ := by
      by_contra hne
      simp [ModeArray.set, hne, modesClear] at hi
    rw [this]
    decide
  obtain ⟨m, l, -, -, hl, hcanonical, -⟩ :=
    modeStrings_canonical.2 (str "-t+tni-n") (.inr rfl) (by decide)
  exact ⟨(modeStrings_canonical.1 _ hletters).1, l, hl, hcanonical⟩

end

end Ctrlproxy
