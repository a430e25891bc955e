import Ctrlproxy.Base.Str
import Ctrlproxy.Lib.Assoc
import Ctrlproxy.Lib.Search

/-!
# Admin — the help file

`help_build_hash` of `src/help.c` makes a table of the entries of the help file, and `cmd_help` of
`src/admin.c` prints the entry of a key.  The file is mapped into memory, so nothing terminates it, and
the values of the table are pointers into it: a read behind the end of the file is a fault.

`HelpEntry` is an entry of the file, and `helpText` the file that has some entries.  What is accepted are
these files (`helpBuildHash_text`, `helpBuildHash_none`), and what is printed for a key are the lines of
its last entry (`cmdHelp_entry`).
-/

namespace Ctrlproxy.Admin
open Outcome

/-! ### The program -/

/-- The table of `help_build_hash`: the values are positions in the file. -/
abbrev HelpTable := List (Str × ℕ)

/-- `g_hash_table_insert`: a value replaces the one of an equal key. -/
def HelpTable.insert (h : HelpTable) (key : Str) (p : ℕ) : HelpTable := Assoc.remove key h ++ [(key, p)]

/-- The loop of `help_build_hash`. -/
def helpBuildHashLoop (data : Str) (len : ℕ) : ℕ → ℕ → HelpTable → Except Fault (Option HelpTable)
  | 0, _, _ => .error .diverges
  | n + 1, i, h =>
      if i < len then do
        if (← Search.readAt Fault.overread data i) ≠ chr '?' then return none
        match ← Search.searchLen Fault.overread data i (len - i) (str "\n") with
        | none => pure none
        | some p => do
            let h := h.insert ((data.drop (i + 1)).take (p - i - 1)) (p + 1)
            match ← Search.searchLen Fault.overread data i (len - i) (str "\n%\n") with
            | none => pure none
            | some p => helpBuildHashLoop data len n (p + 3) h
      else pure (some h)

/-- `help_build_hash`, for the whole file. -/
def helpBuildHash (data : Str) : Except Fault (Option HelpTable) :=
  helpBuildHashLoop data data.length (data.length + 1) 0 []

/-- `help_get`: there is no table where the file was not loaded or not accepted. -/
def helpGet (table : Option HelpTable) (string : Str) : Option ℕ := table.bind (·.lookup string)

/-- The loop of `cmd_help`: the lines from a position on. -/
def cmdHelpLoop (data : Str) : ℕ → ℕ → Except Fault (List Str)
  | 0, _ => .error .diverges
  | n + 1, s => do
      if ← Search.matchesAt Fault.overread data (str "%\n") s then pure []
      else do
        let p ← Search.strchr Fault.overread data (chr '\n') (data.length + 1) s
        let lines ← cmdHelpLoop data n (p + 1)
        pure ((data.drop s).take (p - s) :: lines)

/-- What `cmd_help` answers where there is no help. -/
def noHelp : Option Str → Str
  | none => str "Sorry, help not available"
  | some a => str "Sorry, no help for " ++ a ++ str " available"

/-- `cmd_help`: what it gives to `admin_out`. -/
def cmdHelp (data : Str) (help : Option HelpTable) (arg : Option Str) : Except Fault (List Str) :=
  match helpGet help (arg.getD (str "index")) with
  | none => .ok [noHelp arg]
  | some s => cmdHelpLoop data (data.length + 1) s

/-! ### Help files -/

/-- An entry of a help file. -/
structure HelpEntry where
  key : Str
  body : List Str
  key_line : chr '\n' ∉ key
  body_line : ∀ l ∈ body, chr '\n' ∉ l ∧ l ≠ str "%"

/-- Lines, each with its end. -/
def linesText (body : List Str) : Str := body.flatMap (· ++ [chr '\n'])

/-- What an entry is in the file. -/
def HelpEntry.text (e : HelpEntry) : Str :=
  chr '?' :: e.key ++ chr '\n' :: (linesText e.body ++ str "%\n")

/-- The file with some entries. -/
def helpText (es : List HelpEntry) : Str := es.flatMap HelpEntry.text

/-- Where the lines of an entry begin, behind the position of the entry. -/
def HelpEntry.offset (e : HelpEntry) : ℕ := e.key.length + 2

/-- The table of some entries, the first of which is at position `i`. -/
def tableOf (i : ℕ) (h : HelpTable) : List HelpEntry → HelpTable
  | [] => h
  | e :: es => tableOf (i + e.text.length) (h.insert e.key (i + e.offset)) es

section
variable {data rest post s t key : Str} {e : HelpEntry} {es : List HelpEntry} {body : List Str} {h : HelpTable}
  {i n : ℕ}

/-! ### The separator -/

theorem linesText_cons (l : Str) (body : List Str) :
    linesText (l :: body) = l ++ chr '\n' :: linesText body := by
  rw [linesText, List.flatMap_cons, List.append_assoc]
  rfl

theorem helpText_cons (e : HelpEntry) (es : List HelpEntry) :
    helpText (e :: es) = e.text ++ helpText es := rfl

/-- The separator begins with the end of a line. -/
theorem separator_starts : str "\n%\n" <+: chr '\n' :: t ↔ str "%\n" <+: t := by
  rw [show str "\n%\n" = chr '\n' :: str "%\n" from rfl, List.cons_prefix_cons]
  simp

/-- A line other than `%` is not taken for one. -/
theorem not_percent {l : Str} (hl : chr '\n' ∉ l ∧ l ≠ str "%") :
    ¬ str "%\n" <+: l ++ chr '\n' :: t := by
  rw [show str "%\n" = [chr '%', chr '\n'] from rfl]
  rintro ⟨u, hu⟩
  cases l with
  | nil => exact absurd (List.cons.inj hu).1 (by decide)
  | cons a l =>
      obtain ⟨ha, hu⟩ := List.cons.inj hu
      cases l with
      | nil => exact hl.2 (by rw [← ha]; rfl)
      | cons b l =>
          refine hl.1 ?_
          rw [(List.cons.inj hu).1]
          exact List.mem_cons_of_mem _ List.mem_cons_self

/-- The separator is not in front of the end of such a line. -/
theorem find_line {l : Str} (hl : chr '\n' ∉ l ∧ l ≠ str "%") :
    Search.find (str "\n%\n") (chr '\n' :: (l ++ chr '\n' :: t)) =
      (Search.find (str "\n%\n") (chr '\n' :: t)).map (l.length + 1 + ·) := by
  rw [Search.find, if_neg fun h => not_percent hl (separator_starts.mp h),
    show str "\n%\n" = chr '\n' :: str "%\n" from rfl, Search.find_skip hl.1, Option.map_map]
  refine congrArg (Option.map · _) (funext fun k => ?_)
  simp only [Function.comp_apply]
  omega

/-- The separator behind lines is the first one. -/
theorem find_lines (hbody : ∀ l ∈ body, chr '\n' ∉ l ∧ l ≠ str "%") :
    Search.find (str "\n%\n") (chr '\n' :: (linesText body ++ (str "%\n" ++ t))) =
      some (linesText body).length := by
  induction body with
  | nil => exact Search.find_prefix (separator_starts.mpr (List.prefix_append _ _))
  | cons l body ih =>
      rw [linesText_cons, List.append_assoc, List.cons_append, find_line (hbody l List.mem_cons_self),
        ih fun l hl => hbody l (List.mem_cons_of_mem _ hl), Option.map_some, List.length_append,
        List.length_cons]
      congr 1
      omega

/-- What is in front of the first separator are lines. -/
theorem lines_of_find {k : ℕ} (hk : Search.find (str "\n%\n") (chr '\n' :: t) = some k) :
    ∃ body post, (∀ l ∈ body, chr '\n' ∉ l ∧ l ≠ str "%") ∧ t = linesText body ++ (str "%\n" ++ post) := by
  induction hlen : t.length using Nat.strong_induction_on generalizing t k with
  | _ len ih =>
      by_cases hp : str "%\n" <+: t
      · obtain ⟨post, rfl⟩ := hp
        exact ⟨[], post, fun _ hl => absurd hl List.not_mem_nil, rfl⟩
      by_cases hmem : chr '\n' ∈ t
      · obtain ⟨l, t', rfl, hl⟩ := List.eq_append_cons_of_mem hmem
        have hline : chr '\n' ∉ l ∧ l ≠ str "%" := by
          refine ⟨hl, ?_⟩
          rintro rfl
          exact hp ⟨t', rfl⟩
        rw [find_line hline] at hk
        obtain ⟨k', hk', -⟩ := Option.map_eq_some_iff.mp hk
        obtain ⟨body, post, hbody, rfl⟩ := ih t'.length (by rw [← hlen]; simp; omega) hk' rfl
        refine ⟨l :: body, post, List.forall_mem_cons.mpr ⟨hline, hbody⟩, ?_⟩
        rw [linesText_cons, List.append_assoc]
        rfl
      · rw [Search.find, if_neg fun h => hp (separator_starts.mp h),
          show str "\n%\n" = chr '\n' :: str "%\n" from rfl, Search.find_absent hmem] at hk
        cases hk

/-! ### Loading -/

theorem text_length (e : HelpEntry) :
    e.text.length = e.offset + (linesText e.body).length + 2 := by
  rw [HelpEntry.text, HelpEntry.offset, List.length_append, List.length_cons, List.length_cons,
    List.length_append, show (str "%\n").length = 2 from rfl]
  omega

/-- An entry is put into the table, and the loop goes on behind it. -/
theorem loop_entry (hi : data.drop i = e.text ++ post) :
    helpBuildHashLoop data data.length (n + 1) i h =
      helpBuildHashLoop data data.length n (i + e.text.length) (h.insert e.key (i + e.offset)) := by
  have hlt : i < data.length := by
    by_contra hge
    rw [List.drop_eq_nil_of_le (not_lt.mp hge)] at hi
    cases hi
  have hkey : chr '\n' ∉ chr '?' :: e.key := by
    rw [List.mem_cons, not_or]
    exact ⟨by decide, e.key_line⟩
  have hrest : e.text ++ post =
      (chr '?' :: e.key) ++ chr '\n' :: (linesText e.body ++ (str "%\n" ++ post)) := by
    rw [HelpEntry.text, List.append_assoc, @List.cons_append _ _ (_ ++ _), List.append_assoc]
  have hfirst : Search.find (str "\n") (data.drop i) = some (e.key.length + 1) := by
    rw [hi, hrest, show str "\n" = chr '\n' :: [] from rfl, Search.find_skip hkey,
      Search.find_prefix (List.cons_prefix_cons.mpr ⟨rfl, List.nil_prefix⟩)]
    rfl
  have hsep : Search.find (str "\n%\n") (data.drop i) =
      some (e.key.length + 1 + (linesText e.body).length) := by
    rw [hi, hrest, show str "\n%\n" = chr '\n' :: str "%\n" from rfl, Search.find_skip hkey]
    have hlines := find_lines (t := post) e.body_line
    rw [show str "\n%\n" = chr '\n' :: str "%\n" from rfl] at hlines
    rw [hlines]
    rfl
  have hbytes := hi.trans hrest
  have hread : Search.readAt Fault.overread data i = .ok (chr '?') := Search.readAt_eq hbytes
  have hname : (data.drop (i + 1)).take (i + (e.key.length + 1) - i - 1) = e.key := by
    rw [Search.drop_succ hbytes, show i + (e.key.length + 1) - i - 1 = e.key.length by omega]
    exact List.take_left
  rw [helpBuildHashLoop, if_pos hlt, hread, ok_bind, if_neg (by simp)]
  rw [Search.searchLen_eq (by decide) hlt.le, ok_bind, hfirst, Option.map_some]
  simp only [Search.searchLen_eq (show str "\n%\n" ≠ [] by decide) hlt.le, ok_bind, hsep,
    Option.map_some, hname]
  congr 1
  rw [text_length, HelpEntry.offset]
  omega

/-- Where no entry is, the file is not accepted. -/
theorem loop_reject (hi : data.drop i = rest) (hne : rest ≠ [])
    (hno : ¬∃ (e : HelpEntry) (post : Str), rest = e.text ++ post) :
    helpBuildHashLoop data data.length (n + 1) i h = .ok none := by
  have hlt : i < data.length := by
    by_contra hge
    exact hne (hi.symm.trans (List.drop_eq_nil_of_le (not_lt.mp hge)))
  have hquestion : chr '\n' ≠ chr '?' := by decide
  obtain ⟨b, s, rfl⟩ := List.exists_cons_of_ne_nil hne
  rw [helpBuildHashLoop, if_pos hlt, Search.readAt_eq hi, ok_bind]
  by_cases hb : b = chr '?'
  swap
  · rw [if_pos hb]
    rfl
  subst hb
  rw [if_neg (by simp), Search.searchLen_eq (by decide) hlt.le, ok_bind, hi]
  by_cases hmem : chr '\n' ∈ s
  · obtain ⟨key, t, rfl, hkey⟩ := List.eq_append_cons_of_mem hmem
    have hskip : chr '\n' ∉ chr '?' :: key := by
      rw [List.mem_cons, not_or]
      exact ⟨hquestion, hkey⟩
    have hsep : Search.find (str "\n%\n") (chr '\n' :: t) = none := by
      cases hf : Search.find (str "\n%\n") (chr '\n' :: t) with
      | none => rfl
      | some k =>
          obtain ⟨body, post, hbody, rfl⟩ := lines_of_find hf
          refine absurd ⟨⟨key, body, hkey, hbody⟩, post, ?_⟩ hno
          rw [HelpEntry.text, List.append_assoc, @List.cons_append _ _ (_ ++ _), List.append_assoc]
          rfl
    have hall : Search.find (str "\n%\n") (chr '?' :: key ++ chr '\n' :: t) = none := by
      rw [show str "\n%\n" = chr '\n' :: str "%\n" from rfl] at hsep ⊢
      rw [Search.find_skip hskip, hsep]
      rfl
    cases Search.find (str "\n") (chr '?' :: (key ++ chr '\n' :: t)) with
    | none => rfl
    | some k =>
        simp only [Option.map_some, Search.searchLen_eq (show str "\n%\n" ≠ [] by decide) hlt.le, hi]
        rw [show chr '?' :: (key ++ chr '\n' :: t) = chr '?' :: key ++ chr '\n' :: t from rfl, hall]
        rfl
  · have hskip : chr '\n' ∉ chr '?' :: s := by
      rw [List.mem_cons, not_or]
      exact ⟨hquestion, hmem⟩
    rw [show str "\n" = [chr '\n'] from rfl, Search.find_absent hskip]
    rfl

/-- Behind an entry there is less of the file. -/
theorem entry_shorter (hi : data.drop i = e.text ++ post) (hn : data.length - i < n + 1) :
    data.length - (i + e.text.length) < n := by
  have hlen := congrArg List.length hi
  have hpos := text_length e
  rw [List.length_drop, List.length_append] at hlen
  omega

/-- A file of entries is accepted, with the table of the entries. -/
theorem loop_text (hi : data.drop i = helpText es) (hn : data.length - i < n) :
    helpBuildHashLoop data data.length n i h = .ok (some (tableOf i h es)) := by
  induction es generalizing i n h with
  | nil =>
      cases n with
      | zero => exact absurd hn (Nat.not_lt_zero _)
      | succ n =>
          rw [helpBuildHashLoop, if_neg (not_lt.mpr (List.drop_eq_nil_iff.mp hi))]
          rfl
  | cons e es ih =>
      cases n with
      | zero => exact absurd hn (Nat.not_lt_zero _)
      | succ n =>
          rw [loop_entry hi]
          exact ih (Search.drop_append hi) (entry_shorter hi hn)

/-- Another file is not. -/
theorem loop_none (hi : data.drop i = rest) (hno : ¬∃ es, rest = helpText es)
    (hn : data.length - i < n) : helpBuildHashLoop data data.length n i h = .ok none := by
  induction n generalizing i rest h with
  | zero => exact absurd hn (Nat.not_lt_zero _)
  | succ n ih =>
      have hne : rest ≠ [] := fun e => hno ⟨[], e⟩
      by_cases hentry : ∃ (e : HelpEntry) (post : Str), rest = e.text ++ post
      · obtain ⟨e, post, rfl⟩ := hentry
        rw [loop_entry hi]
        refine ih (Search.drop_append hi) ?_ (entry_shorter hi hn)
        rintro ⟨es, rfl⟩
        exact hno ⟨e :: es, rfl⟩
      · exact loop_reject hi hne hentry

theorem helpBuildHash_text (es : List HelpEntry) :
    helpBuildHash (helpText es) = .ok (some (tableOf 0 [] es)) :=
  loop_text rfl (Nat.lt_succ_self _)

theorem helpBuildHash_none (hno : ¬∃ es, data = helpText es) : helpBuildHash data = .ok none :=
  loop_none rfl hno (Nat.lt_succ_self _)

/-! ### Printing -/

theorem lookup_insert (h : HelpTable) (k key : Str) (p : ℕ) :
    (h.insert k p).lookup key = if key = k then some p else h.lookup key :=
  Assoc.lookup_remove_snoc k key p h

/-- The table has nothing for a key of no entry. -/
theorem lookup_absent (hk : ∀ e ∈ es, e.key ≠ key) : (tableOf i h es).lookup key = h.lookup key := by
  induction es generalizing i h with
  | nil => rfl
  | cons e es ih =>
      rw [tableOf, ih fun e' he' => hk e' (List.mem_cons_of_mem _ he'), lookup_insert,
        if_neg (Ne.symm (hk e List.mem_cons_self))]

/-- The table has the last entry of a key. -/
theorem lookup_last {pre post : List HelpEntry} (hk : ∀ e' ∈ post, e'.key ≠ e.key) :
    (tableOf i h (pre ++ e :: post)).lookup e.key = some (i + (helpText pre).length + e.offset) := by
  induction pre generalizing i h with
  | nil =>
      rw [List.nil_append, tableOf, lookup_absent hk, lookup_insert, if_pos rfl]
      rfl
  | cons e' pre ih =>
      rw [List.cons_append, tableOf, ih, helpText_cons, List.length_append, ← Nat.add_assoc]

/-- Each line has its end in the file. -/
theorem length_le_linesText (body : List Str) : body.length ≤ (linesText body).length := by
  induction body with
  | nil => exact Nat.le_refl 0
  | cons l body ih =>
      rw [linesText_cons, List.length_append, List.length_cons, List.length_cons]
      omega

/-- There is room for a comparison where lines and a separator are. -/
theorem separator_fits (hi : data.drop i = linesText body ++ (str "%\n" ++ rest)) :
    i + (str "%\n").length ≤ data.length := by
  have hlen := congrArg List.length hi
  have htwo : (str "%\n").length = 2 := rfl
  rw [List.length_drop, List.length_append, List.length_append] at hlen
  omega

/-- The loop prints lines up to the separator. -/
theorem cmdHelpLoop_lines (hbody : ∀ l ∈ body, chr '\n' ∉ l ∧ l ≠ str "%")
    (hi : data.drop i = linesText body ++ (str "%\n" ++ rest)) (hn : body.length < n) :
    cmdHelpLoop data n i = .ok body := by
  induction body generalizing i n with
  | nil =>
      obtain ⟨n, rfl⟩ : ∃ k, n = k + 1 := Nat.exists_eq_succ_of_ne_zero (Nat.ne_of_gt hn)
      have hsep : str "%\n" <+: data.drop i := hi ▸ List.prefix_append (str "%\n") rest
      rw [cmdHelpLoop, Search.matchesAt_eq (separator_fits hi), ok_bind, decide_eq_true hsep]
      rfl
  | cons l body ih =>
      obtain ⟨n, rfl⟩ : ∃ k, n = k + 1 :=
        Nat.exists_eq_succ_of_ne_zero (Nat.ne_of_gt (Nat.zero_lt_of_lt hn))
      have hl := hbody l List.mem_cons_self
      have hmatch : Search.matchesAt Fault.overread data (str "%\n") i =
          .ok (decide (str "%\n" <+: data.drop i)) := Search.matchesAt_eq (separator_fits hi)
      rw [linesText_cons, List.append_assoc, List.cons_append] at hi
      rw [hi, decide_eq_false (not_percent hl)] at hmatch
      have hend : l.length < data.length + 1 := by
        have hlen := congrArg List.length hi
        rw [List.length_drop, List.length_append] at hlen
        omega
      have hstrchr : Search.strchr Fault.overread data (chr '\n') (data.length + 1) i =
          .ok (i + l.length) := Search.strchr_eq hi hl.1 hend
      have hline : (data.drop i).take (i + l.length - i) = l := by
        rw [hi, Nat.add_sub_cancel_left]
        exact List.take_left
      have hlines := ih (fun l hl => hbody l (List.mem_cons_of_mem _ hl))
        (Search.drop_succ (Search.drop_append hi)) (Nat.lt_of_succ_lt_succ hn)
      rw [cmdHelpLoop, hmatch, ok_bind, if_neg Bool.false_ne_true, hstrchr, ok_bind, hlines, ok_bind, hline]
      rfl

/-- What `cmd_help` prints for a key of the table. -/
theorem cmdHelp_entry {pre post : List HelpEntry} (hk : ∀ e' ∈ post, e'.key ≠ e.key) (arg : Option Str)
    (harg : arg.getD (str "index") = e.key) (rest : Str) :
    cmdHelp (helpText (pre ++ [e]) ++ rest) (some (tableOf 0 [] (pre ++ e :: post))) arg =
      .ok e.body := by
  have hget : helpGet (some (tableOf 0 [] (pre ++ e :: post))) (arg.getD (str "index")) =
      some ((helpText pre).length + e.offset) := by
    rw [harg, helpGet, Option.bind_some, lookup_last hk, Nat.zero_add]
  have htext : helpText (pre ++ [e]) ++ rest =
      helpText pre ++ ((chr '?' :: e.key ++ [chr '\n']) ++ (linesText e.body ++ (str "%\n" ++ rest))) := by
    simp [helpText, HelpEntry.text]
  have hoffset : (chr '?' :: e.key ++ [chr '\n']).length = e.offset := by
    simp [HelpEntry.offset]
  have hdrop : (helpText (pre ++ [e]) ++ rest).drop ((helpText pre).length + e.offset) =
      linesText e.body ++ (str "%\n" ++ rest) := by
    rw [htext, ← List.drop_drop, List.drop_left, ← hoffset, List.drop_left]
  simp only [cmdHelp, hget]
  refine cmdHelpLoop_lines e.body_line hdrop ?_
  have hlines := length_le_linesText e.body
  have hlen := congrArg List.length hdrop
  rw [List.length_drop, @List.length_append _ (linesText _)] at hlen
  omega

/-- What `cmd_help` prints for a key that the table has not. -/
theorem cmdHelp_absent (arg : Option Str) (hk : ∀ e ∈ es, e.key ≠ arg.getD (str "index")) :
    cmdHelp data (some (tableOf 0 [] es)) arg = .ok [noHelp arg] := by
  have hget : helpGet (some (tableOf 0 [] es)) (arg.getD (str "index")) = none := by
    rw [helpGet, Option.bind_some, lookup_absent hk]
    rfl
  simp only [cmdHelp, hget]

end

/-- Loading reads nothing outside the file, and accepts the files of entries only.  `cmd_help` prints the
lines of the last entry of the key, in order and with the entry followed by anything, so that it reads
nothing behind it; a key of no entry has no help. -/
theorem helpFile_printed (data : Str) :
    ∃ table, helpBuildHash data = .ok table ∧ (table ≠ none ↔ ∃ es, data = helpText es) ∧
      ∀ es, data = helpText es →
        (∀ pre e post, es = pre ++ e :: post → (∀ e' ∈ post, e'.key ≠ e.key) →
          ∀ arg : Option Str, arg.getD (str "index") = e.key →
            ∀ rest, cmdHelp (helpText (pre ++ [e]) ++ rest) table arg = .ok e.body) ∧
        ∀ arg : Option Str, (∀ e ∈ es, e.key ≠ arg.getD (str "index")) →
          cmdHelp data table arg = .ok [noHelp arg] := by
  by_cases hfile : ∃ es, data = helpText es
  · obtain ⟨es₀, rfl⟩ := hfile
    refine ⟨_, helpBuildHash_text es₀, ⟨fun _ => ⟨es₀, rfl⟩, fun _ => Option.some_ne_none _⟩, ?_⟩
    intro es hes
    -- the text has one table, whatever entries it is read as
    have htable : some (tableOf 0 [] es₀) = some (tableOf 0 [] es) :=
      Except.ok.inj ((helpBuildHash_text es₀).symm.trans (hes ▸ helpBuildHash_text es))
    rw [htable]
    constructor
    · rintro pre e post rfl hlast arg harg rest
      exact cmdHelp_entry hlast arg harg rest
    · intro arg hk
      exact cmdHelp_absent arg hk
  · refine ⟨none, helpBuildHash_none hfile, ⟨fun h => absurd rfl h, fun h => absurd h hfile⟩, ?_⟩
    intro es hes
    exact absurd ⟨es, hes⟩ hfile

end Ctrlproxy.Admin
