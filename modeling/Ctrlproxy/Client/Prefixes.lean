import Ctrlproxy.Base.Announce
import Ctrlproxy.Client.Rows
import Ctrlproxy.Lib.Columns

/-!
# Client — the prefix table

A `PREFIX` value `(modes)symbols` is one string, and four functions of `isupport.c` walk it.  Three go
over the symbols behind the `)` up to the terminator and take the mode at the same index behind the `(`;
`is_prefix` searches the symbols alone.  `Scan` has them as they are written, on two pointers into the
string, with a fault for a read behind its end.  There is none, and whatever `PREFIX` holds they are the
lookups in `prefixTable` that the rest of the model uses (`Scan.getPrefixByMode_eq` and its neighbours).

For a well-formed value the table can be read both ways (`prefix_tables_agree`), so the character a name
is listed with says which mode was meant (`listed_prefix_understood`).
-/

namespace Ctrlproxy
open Outcome

/-! ### The scanners -/

namespace Scan

/-- The character of a string at an index, `none` being the terminator. -/
def charAt (s : Str) (i : ℕ) : Except Fault (Option Byte) :=
  if i ≤ s.length then .ok s[i]? else .error .overread

/-- `prefix` and `pref_end` behind the `(` and the `)`; `none` for malformed data. -/
def pointers (pref : Str) : Option (Str × Str) :=
  match pref.dropWhile (· ≠ chr ')') with
  | [] => none
  | _ :: prefEnd => if pref.head? = some (chr '(') then some (pref.tail, prefEnd) else none

/-- `for (i = 0; pref_end[i]; i++)`, from `i` on: `body` returns, or goes on to the next symbol. -/
def forSymbols {R : Type} (body : ℕ → Byte → Except Fault (Option R)) :
    ℕ → Str → Except Fault (Option R)
  | _, [] => .ok none
  | i, p :: prefEnd => do
      match ← body i p with
      | some r => pure (some r)
      | none => forSymbols body (i + 1) prefEnd

/-- `modes[(unsigned char)c]`. -/
def modeAt (modes : Modes) (c : Option Byte) : Except Fault Bool :=
  match c with
  | none => .ok (modes ⟨0, maxmodes_pos⟩)
  | some b => do
      let i ← modeSlot b
      pure (modes i)

section
variable (n : NetworkInfo)

/-- `get_prefix_from_modes`. -/
def getPrefixFromModes (modes : Modes) : Except Fault (Option Byte) :=
  match pointers n.prefixes with
  | none => .ok none
  | some (pref, prefEnd) => forSymbols (fun i p => do
      let c ← charAt pref i
      let set ← modeAt modes c
      pure (if set then some p else none)) 0 prefEnd

/-- `get_mode_by_prefix`. -/
def getModeByPrefix (p : Option Byte) : Except Fault (Option Byte) :=
  match pointers n.prefixes with
  | none => .ok none
  | some (pref, prefEnd) => do
      let r ← forSymbols (fun i q => do
        if some q = p then
          let c ← charAt pref i
          pure (some c)
        else pure none) 0 prefEnd
      pure r.join

/-- `get_prefix_by_mode`. -/
def getPrefixByMode (mode : Option Byte) : Except Fault (Option Byte) :=
  match pointers n.prefixes with
  | none => .ok (some (chr ' '))
  | some (pref, prefEnd) => do
      let r ← forSymbols (fun i p => do
        let c ← charAt pref i
        pure (if c = mode then some p else none)) 0 prefEnd
      pure (some (r.getD (chr ' ')))

/-- `is_prefix_mode`. -/
def isPrefixMode (mode : Option Byte) : Except Fault Bool := do
  let p ← getPrefixByMode n mode
  pure (p ≠ some (chr ' '))

end

end Scan

/-! ### The scanners are lookups -/

section
variable {n : NetworkInfo} {pref prefEnd : Str} {R : Type}

/-- A loop that looks at the symbol and at the character at its index is one over the rows. -/
theorem Scan.forSymbols_eq {body : ℕ → Byte → Except Fault (Option R)}
    (row : Byte × Byte → Except Fault (Option R)) {i : ℕ} (hlen : i + prefEnd.length ≤ pref.length)
    (hbody : ∀ i p m, pref[i]? = some m → body i p = row (p, m)) :
    Scan.forSymbols body i prefEnd = (prefEnd.zip (pref.drop i)).findSomeM? row := by
  induction prefEnd generalizing i with
  | nil => rfl
  | cons p prefEnd ih =>
      rw [List.length_cons] at hlen
      have hi : i < pref.length := by omega
      rw [List.drop_eq_getElem_cons hi, List.zip_cons_cons, List.findSomeM?_cons, Scan.forSymbols,
        hbody i p _ (List.getElem?_eq_getElem hi), ih (by omega)]
      rfl

theorem Scan.charAt_eq {i : ℕ} {m : Byte} (h : pref[i]? = some m) : Scan.charAt pref i = .ok (some m) := by
  have hi := (List.getElem?_eq_some_iff.mp h).1
  rw [Scan.charAt, if_pos hi.le, h]

/-- The pointers lead to a table: every symbol has a mode, or a character behind the modes, at its
index. -/
theorem Scan.pointers_cases (n : NetworkInfo) :
    Scan.pointers n.prefixes = none ∧ prefixTable n = none ∨
    ∃ pref prefEnd, Scan.pointers n.prefixes = some (pref, prefEnd) ∧
      prefixTable n = some (prefEnd.zip (pref.drop 0)) ∧ 0 + prefEnd.length ≤ pref.length := by
  rw [Scan.pointers, prefixTable, prefixEnd]
  cases hp : n.prefixes with
  | nil => exact .inl ⟨rfl, rfl⟩
  | cons b rest =>
      dsimp only
      cases hend : (b :: rest).dropWhile (· ≠ chr ')') with
      | nil =>
          exact .inl ⟨rfl, if_neg fun h => dropWhile_ne_eq_nil.mp hend h.2⟩
      | cons c prefEnd =>
          have hmem : chr ')' ∈ b :: rest := by
            by_contra hno
            exact List.cons_ne_nil _ _ (hend.symm.trans (dropWhile_ne_eq_nil.mpr hno))
          by_cases hb : b = chr '('
          · refine .inr ⟨rest, prefEnd, if_pos (congrArg some hb), if_pos ⟨hb, hmem⟩, ?_⟩
            have hsuffix := (List.dropWhile_suffix (l := b :: rest) (· ≠ chr ')')).length_le
            rw [hend, List.length_cons, List.length_cons] at hsuffix
            omega
          · exact .inl ⟨if_neg fun h => hb (Option.some.inj h), if_neg fun h => hb h.1⟩

/-- `get_prefix_by_mode` searches the modes, and answers with a symbol. -/
theorem Scan.getPrefixByMode_eq (m : Byte) :
    Scan.getPrefixByMode n (some m) = .ok (some (Ctrlproxy.getPrefixByMode m n)) := by
  rw [Scan.getPrefixByMode, Ctrlproxy.getPrefixByMode]
  obtain ⟨hp, ht⟩ | ⟨pref, prefEnd, hp, ht, hlen⟩ := Scan.pointers_cases n
  · rw [hp, ht]
  · rw [hp, ht]
    dsimp only
    rw [Scan.forSymbols_eq (fun e => .ok (if decide (e.2 = m) then some e.1 else none)) hlen,
      Columns.findSomeM?_find?, ok_bind]
    · cases (prefEnd.zip (pref.drop 0)).find? fun e => e.2 = m <;> rfl
    · intro i p c hc
      rw [Scan.charAt_eq hc, ok_bind]
      simp

/-- `get_mode_by_prefix` searches the symbols, and answers with a mode. -/
theorem Scan.getModeByPrefix_eq (p : Byte) :
    Scan.getModeByPrefix n (some p) = .ok (Ctrlproxy.getModeByPrefix p n) := by
  rw [Scan.getModeByPrefix, Ctrlproxy.getModeByPrefix]
  obtain ⟨hp, ht⟩ | ⟨pref, prefEnd, hp, ht, hlen⟩ := Scan.pointers_cases n
  · rw [hp, ht]
  · rw [hp, ht]
    dsimp only
    rw [Scan.forSymbols_eq (fun e => .ok (if decide (e.1 = p) then some (some e.2) else none)) hlen,
      Columns.findSomeM?_find?, ok_bind]
    · cases (prefEnd.zip (pref.drop 0)).find? fun e => e.1 = p <;> rfl
    · intro i q c hc
      by_cases hq : q = p
      · rw [if_pos (congrArg some hq), Scan.charAt_eq hc, ok_bind]
        simp [hq]
      · rw [if_neg fun h => hq (Option.some.inj h)]
        simp [hq]

/-- `get_prefix_from_modes` is the search for the first mode that is set. -/
theorem Scan.getPrefixFromModes_eq (modes : Modes) :
    Scan.getPrefixFromModes n modes = Ctrlproxy.getPrefixFromModes n modes := by
  rw [Scan.getPrefixFromModes, Ctrlproxy.getPrefixFromModes]
  obtain ⟨hp, ht⟩ | ⟨pref, prefEnd, hp, ht, hlen⟩ := Scan.pointers_cases n
  · rw [hp, ht]
  · rw [hp, ht]
    dsimp only
    rw [Scan.forSymbols_eq (fun e => do
      let i ← modeSlot e.2
      pure (if modes i then some e.1 else none)) hlen]
    · induction prefEnd.zip (pref.drop 0) with
      | nil => rfl
      | cons e t ih =>
          obtain ⟨p, m⟩ := e
          rw [List.findSomeM?_cons, firstPrefix, ih]
          cases modeSlot m with
          | error f => rfl
          | ok i =>
              rw [ok_bind, ok_bind]
              cases modes i <;> rfl
    · intro i p c hc
      rw [Scan.charAt_eq hc, ok_bind, Scan.modeAt]
      cases modeSlot c <;> rfl

/-- The terminator is no mode and no symbol. -/
theorem Scan.terminator (n : NetworkInfo) :
    Scan.getPrefixByMode n none = .ok (some (chr ' ')) ∧ Scan.getModeByPrefix n none = .ok none := by
  rw [Scan.getPrefixByMode, Scan.getModeByPrefix]
  obtain ⟨hp, -⟩ | ⟨pref, prefEnd, hp, -, hlen⟩ := Scan.pointers_cases n
  · rw [hp]
    exact ⟨rfl, rfl⟩
  · rw [hp]
    dsimp only
    constructor
    · rw [Scan.forSymbols_eq (fun _ => .ok none) hlen, Columns.findSomeM?_none, ok_bind]
      · rfl
      · intro i p c hc
        rw [Scan.charAt_eq hc, ok_bind, if_neg (Option.some_ne_none c)]
        rfl
    · rw [Scan.forSymbols_eq (fun _ => .ok none) hlen, Columns.findSomeM?_none, ok_bind]
      · rfl
      · intro i p c _
        rw [if_neg (Option.some_ne_none p)]
        rfl

end

/-! ### Well-formed values -/

/-- `'(' modes ')' symbols`. -/
def prefixValue (modes symbols : Str) : Str := chr '(' :: (modes ++ chr ')' :: symbols)

/-- The modes and the symbols of a well-formed `PREFIX` value. -/
structure WellFormedPrefix (modes symbols : Str) : Prop where
  length : modes.length = symbols.length
  modes_once : modes.Nodup
  symbols_once : symbols.Nodup
  plain : ∀ b ∈ modes ++ symbols, b ≠ chr ')' ∧ b ≠ chr ' ' ∧ b ≠ byteFF

/-- The symbol of the leftmost mode that a mode set contains. -/
def LeftmostSymbol (set : Modes) (modes symbols : Str) (p : Byte) : Prop :=
  ∃ i : ℕ, ∃ m, symbols[i]? = some p ∧ modes[i]? = some m ∧ flagOf set m = true ∧
    ∀ j < i, ∀ m', modes[j]? = some m' → flagOf set m' = false

/-- What the functions that read a prefix table say of its modes and symbols. -/
structure PrefixTablesAgree (n : NetworkInfo) (modes symbols : Str) : Prop where
  symbolOf : ∀ m ∈ modes, ∃ p ∈ symbols, Scan.getPrefixByMode n (some m) = .ok (some p) ∧
    Scan.getModeByPrefix n (some p) = .ok (some m)
  modeOf : ∀ p ∈ symbols, ∃ m ∈ modes, Scan.getModeByPrefix n (some p) = .ok (some m) ∧
    Scan.getPrefixByMode n (some m) = .ok (some p)
  isPrefix : ∀ p, Ctrlproxy.isPrefix p (some n) = true ↔ ∃ b ∈ symbols, p = some b
  isPrefixMode : ∀ m, ∃ r, Scan.isPrefixMode n m = .ok r ∧ (r = true ↔ ∃ b ∈ modes, m = some b)
  fromModes : ∀ set, ∃ r, Scan.getPrefixFromModes n set = .ok r ∧
    (∀ p, r = some p ↔ LeftmostSymbol set modes symbols p) ∧
    (r = none ↔ ∀ m ∈ modes, flagOf set m = false)

section
variable {n : NetworkInfo} {modes symbols : Str} {m p : Byte}

theorem WellFormedPrefix.end_eq (h : WellFormedPrefix modes symbols) :
    prefixEnd (prefixValue modes symbols) = symbols := by
  have hfront : ∀ b ∈ chr '(' :: modes, decide (b ≠ chr ')') = true := by
    intro b hb
    rcases List.mem_cons.mp hb with rfl | hb
    · decide
    · exact decide_eq_true (h.plain b (List.mem_append_left _ hb)).1
  have hend : (prefixValue modes symbols).dropWhile (· ≠ chr ')') = chr ')' :: symbols := by
    rw [prefixValue, ← List.cons_append, List.dropWhile_append_of_pos hfront]
    exact List.dropWhile_cons_of_neg (by simp)
  rw [prefixEnd, hend]

/-- The table of a well-formed value has the symbols and the modes as its columns. -/
theorem WellFormedPrefix.table_eq (h : WellFormedPrefix modes symbols)
    (hn : n.prefixes = prefixValue modes symbols) : prefixTable n = some (symbols.zip modes) := by
  have hclose : chr ')' ∈ prefixValue modes symbols :=
    List.mem_cons_of_mem _ (List.mem_append_right _ List.mem_cons_self)
  have hzip : symbols.zip (modes ++ chr ')' :: symbols) = symbols.zip modes := by
    have hsplit : (symbols ++ []).zip (modes ++ chr ')' :: symbols) =
        symbols.zip modes ++ [].zip (chr ')' :: symbols) := List.zip_append h.length.symm
    rwa [List.append_nil, List.zip_nil_left, List.append_nil] at hsplit
  rw [prefixTable, hn, h.end_eq, prefixValue]
  dsimp only
  rw [← prefixValue, if_pos ⟨rfl, hclose⟩, hzip]

theorem WellFormedPrefix.twoWay (h : WellFormedPrefix modes symbols) :
    Columns.TwoWay (symbols.zip modes) :=
  .zip h.symbols_once h.modes_once h.length.symm

/-- A mode is answered with its symbol, and anything else with a space. -/
theorem WellFormedPrefix.prefixOf (h : WellFormedPrefix modes symbols)
    (hn : n.prefixes = prefixValue modes symbols) :
    getPrefixByMode m n = (((symbols.zip modes).find? fun e => e.2 = m).map Prod.fst).getD (chr ' ') := by
  rw [getPrefixByMode, h.table_eq hn]
  dsimp only
  cases (symbols.zip modes).find? fun e => e.2 = m <;> rfl

theorem WellFormedPrefix.modeOf (h : WellFormedPrefix modes symbols)
    (hn : n.prefixes = prefixValue modes symbols) :
    getModeByPrefix p n = ((symbols.zip modes).find? fun e => e.1 = p).map Prod.snd := by
  rw [getModeByPrefix, h.table_eq hn]

theorem WellFormedPrefix.find_mode (h : WellFormedPrefix modes symbols) (hm : m ∈ modes) :
    ∃ p ∈ symbols, ((symbols.zip modes).find? fun e => e.2 = m).map Prod.fst = some p := by
  have hcolumn : m ∈ (symbols.zip modes).map Prod.snd := by
    rwa [List.map_snd_zip h.length.le]
  obtain ⟨e, he, hfind⟩ := Columns.exists_row hcolumn
  exact ⟨e.1, (List.of_mem_zip he).1, by rw [hfind, Option.map_some]⟩

theorem WellFormedPrefix.find_symbol (h : WellFormedPrefix modes symbols) (hp : p ∈ symbols) :
    ∃ m ∈ modes, ((symbols.zip modes).find? fun e => e.1 = p).map Prod.snd = some m := by
  have hcolumn : p ∈ (symbols.zip modes).map Prod.fst := by
    rwa [List.map_fst_zip h.length.ge]
  obtain ⟨e, he, hfind⟩ := Columns.exists_row hcolumn
  exact ⟨e.2, (List.of_mem_zip he).2, by rw [hfind, Option.map_some]⟩

theorem WellFormedPrefix.isPrefix_iff (h : WellFormedPrefix modes symbols)
    (hn : n.prefixes = prefixValue modes symbols) {c : Option Byte} :
    isPrefix c (some n) = true ↔ ∃ b ∈ symbols, c = some b := by
  cases c with
  | none => simp [isPrefix]
  | some b => simp [isPrefix, hn, h.end_eq]

theorem WellFormedPrefix.isPrefixMode_iff (h : WellFormedPrefix modes symbols)
    (hn : n.prefixes = prefixValue modes symbols) : isPrefixMode n m = true ↔ m ∈ modes := by
  rw [isPrefixMode, decide_eq_true_eq, h.prefixOf hn]
  constructor
  · intro hne
    by_contra hm
    have hmiss : ((symbols.zip modes).find? fun e => e.2 = m) = none := by
      rwa [Columns.find?_key_none, List.map_snd_zip h.length.le]
    rw [hmiss] at hne
    exact hne rfl
  · intro hm
    obtain ⟨p, hp, hfind⟩ := h.find_mode hm
    rw [hfind, Option.getD_some]
    exact (h.plain p (List.mem_append_right _ hp)).2.1

/-- The search by a mode set. -/
theorem WellFormedPrefix.fromModes (h : WellFormedPrefix modes symbols)
    (hn : n.prefixes = prefixValue modes symbols) (set : Modes) : getPrefixFromModes n set =
      .ok (((symbols.zip modes).find? fun e => flagOf set e.2).map Prod.fst) := by
  rw [getPrefixFromModes, h.table_eq hn]
  exact firstPrefix_eq fun e he => (h.plain e.2 (List.mem_append_left _ (List.of_mem_zip he).2)).2.2

/-- **The readings of a prefix table agree.** For a well-formed value `get_prefix_by_mode` and
`get_mode_by_prefix` take the modes to the symbols and back, `is_prefix` and `is_prefix_mode` know the
symbols and the modes, and `get_prefix_from_modes` finds the symbol of the leftmost mode that is set. -/
theorem prefix_tables_agree (h : WellFormedPrefix modes symbols)
    (hn : n.prefixes = prefixValue modes symbols) : PrefixTablesAgree n modes symbols where
  symbolOf := by
    intro m hm
    obtain ⟨p, hp, hfind⟩ := h.find_mode hm
    refine ⟨p, hp, ?_, ?_⟩
    · rw [Scan.getPrefixByMode_eq, h.prefixOf hn, hfind, Option.getD_some]
    · rw [Scan.getModeByPrefix_eq, h.modeOf hn, h.twoWay.inverse.mpr hfind]
  modeOf := by
    intro p hp
    obtain ⟨m, hm, hfind⟩ := h.find_symbol hp
    refine ⟨m, hm, ?_, ?_⟩
    · rw [Scan.getModeByPrefix_eq, h.modeOf hn, hfind]
    · rw [Scan.getPrefixByMode_eq, h.prefixOf hn, h.twoWay.inverse.mp hfind, Option.getD_some]
  isPrefix := fun p => h.isPrefix_iff hn
  isPrefixMode := by
    intro m
    cases m with
    | none =>
        refine ⟨false, ?_, by simp⟩
        rw [Scan.isPrefixMode, (Scan.terminator n).1, ok_bind]
        simp
    | some m =>
        refine ⟨Ctrlproxy.isPrefixMode n m, ?_, ?_⟩
        · rw [Scan.isPrefixMode, Scan.getPrefixByMode_eq, ok_bind, Ctrlproxy.isPrefixMode]
          simp
        · rw [h.isPrefixMode_iff hn]
          simp
  fromModes := by
    intro set
    refine ⟨_, (Scan.getPrefixFromModes_eq set).trans (h.fromModes hn set), ?_, ?_⟩
    · exact fun p => Columns.find?_zip_iff
    · rw [Option.map_eq_none_iff, List.find?_eq_none]
      constructor
      · intro hnone m hm
        rw [← List.map_snd_zip h.length.le] at hm
        obtain ⟨e, he, rfl⟩ := List.mem_map.mp hm
        exact Bool.eq_false_of_not_eq_true (hnone e he)
      · intro hnone e he
        rw [hnone e.2 (List.of_mem_zip he).2]
        exact Bool.false_ne_true

/-- The table that a network starts with. -/
theorem prefix_tables_agree_default : WellFormedPrefix (str "ov") (str "@+") ∧
    networkInfoInit.prefixes = prefixValue (str "ov") (str "@+") ∧
    PrefixTablesAgree networkInfoInit (str "ov") (str "@+") := by
  have h : WellFormedPrefix (str "ov") (str "@+") := ⟨by decide, by decide, by decide, by decide⟩
  exact ⟨h, by decide, prefix_tables_agree h (by decide)⟩

/-! ### What the table is used for -/

/-- A well-formed value that the server announces is the one that is read. -/
theorem announced_prefixes (v : Str) (hv : v = prefixValue modes symbols) :
    networkInfoParse n (infoToken (str "PREFIX") v) = .ok { n with prefixes := v } := by
  have hkey : (str "PREFIX", InfoKey.prefixes) ∈ infoOrder := by decide
  have hclose : chr ')' ∈ v := by
    rw [hv]
    exact List.mem_cons_of_mem _ (List.mem_append_right _ List.mem_cons_self)
  have hopen : v.head? = some (chr '(') := by rw [hv]; rfl
  rw [networkInfoParse_infoToken hkey, applyInfoKey, if_neg]
  rintro ⟨-, hbad | hbad⟩
  · exact hbad hopen
  · exact hbad hclose

/-- **The character a name is listed with is understood.** It is recognized as a prefix, and the modes it
is read as are the one mode it was listed for. -/
theorem listed_prefix_understood (h : WellFormedPrefix modes symbols)
    (hn : n.prefixes = prefixValue modes symbols) {set : Modes}
    (hp : getPrefixFromModes n set = .ok (some p)) : isPrefix (some p) (some n) = true ∧
      ∃ m ∈ modes, flagOf set m = true ∧ ∃ read, prefixModes n (some p) = .ok read ∧
        ∀ m', flagOf read m' = decide (m' = m) := by
  rw [h.fromModes hn] at hp
  obtain ⟨⟨p', m⟩, hfind, rfl⟩ := Option.map_eq_some_iff.mp (Except.ok.inj hp)
  have hrow := List.mem_of_find?_eq_some hfind
  obtain ⟨hsymbol, hmode⟩ := List.of_mem_zip hrow
  have hback : getModeByPrefix p' n = some m := by
    rw [h.modeOf hn]
    exact (Columns.find?_value h.twoWay.fst).mpr ⟨(p', m), hrow, rfl, rfl⟩
  have hFF : m ≠ byteFF := (h.plain m (List.mem_append_left _ hmode)).2.2
  have hset : flagOf set m = true :=
    List.find?_some (p := fun e : Byte × Byte => flagOf set e.2) hfind
  obtain ⟨i, hi, -⟩ := (modeSlot_ensures (E := fun _ => False) hFF).exists_ok
  refine ⟨(h.isPrefix_iff hn).mpr ⟨p', hsymbol, rfl⟩, m, hmode, hset,
    ModeArray.set modesClear i true, ?_, fun m' => ?_⟩
  · rw [prefixModes, hback]
    dsimp only
    rw [modesChangeMode, hi, ok_bind]
    rfl
  · rw [flagOf_set hi]
    by_cases hm : m' = m
    · simp [hm]
    · rw [if_neg hm, decide_eq_false hm, flagOf]
      cases modeSlot m' <;> rfl

end

end Ctrlproxy
