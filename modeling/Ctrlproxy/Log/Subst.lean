import Ctrlproxy.Log.Mapping

/-!
# Log — templates

`custom_subst` of `src/log_subst.c` goes through a template twice.  The first loop looks at every `%`, also
at one that is the second character of an escape; it finds the texts and adds up how much room they take.
The second steps over both characters of an escape, and writes.  What it writes is the template read from
left to right with every escape replaced (`customSubst_expands`), so the first loop only asks for too much
room.
-/

namespace Ctrlproxy.Log
open Outcome

/-- `convertslashes`. -/
def convertslashes (a : Str) : Str := a.map fun b => if b = chr '/' then chr '_' else b

/-! ### The two loops -/

section
variable (find : ℕ → Option Byte → Except Access (Option Str)) (noslash : Bool)

/-- The text of an escape. -/
def substText (i : ℕ) (c : Option Byte) : Except Access Str := do
  let subst ← find i c
  let subst := subst.getD []
  pure (if noslash then convertslashes subst else subst)

/-- The first loop: `subst`, from the `i`-th entry on.  Behind a final `%` is the terminator. -/
def substTexts : (i : ℕ) → Str → Except Access (List (Option Str))
  | _, [] => .ok []
  | i, b :: fmt => do
      let subst ← if b = chr '%' then (substText find noslash i fmt.head?).map some else pure none
      let rest ← substTexts (i + 1) fmt
      pure (subst :: rest)

end

/-- `exp_len`. -/
def expLen (fmt : Str) (subst : List (Option Str)) : ℕ :=
  fmt.length + (subst.map fun s => (s.getD []).length).sum + 1

/-- The second loop: the characters of the template with their entries of `subst`.  `skip` holds at the
second character of an escape. -/
def substLoop (expLen : ℕ) : (skip : Bool) → Cells Byte → (curpos : ℕ) → List (Byte × Option Str) →
    Except Access (Cells Byte)
  | _, new, curpos, [] => new.store curpos none
  | true, new, curpos, _ :: fmt => substLoop expLen false new curpos fmt
  | false, new, curpos, (b, subst) :: fmt =>
      if b = chr '%' then
        match subst with
        | none => .error .read
        | some subst => do
            let new ← new.store curpos none
            let new ← new.strncat subst expLen
            substLoop expLen true new (curpos + subst.length) fmt
      else do
        let new ← new.store curpos (some b)
        substLoop expLen false new (curpos + 1) fmt

/-- `custom_subst`.  `call` says what a callback returns when it is called at a place of the template, and
`memory` what `g_new` finds in the memory. -/
def customSubst (call : ℕ → Callback → Except Access (Option Str)) (fmt : Str) (l : IrcLine)
    (caseSensitive noslash : Bool) (memory : ℕ → Option Byte) : Except Access Str := do
  let subst ← substTexts (fun i c => findMapping (call i) l c caseSensitive) noslash 0 fmt
  let len := expLen fmt subst
  let new ← substLoop len false ((List.range len).map memory) 0 (fmt.zip subst)
  new.text

/-! ### What a template means -/

/-- The text of a character: that of the first mapping for it that applies to the line, or none. -/
def meaning (text : Callback → Option Str) (l : IrcLine) (caseSensitive : Bool) (c : Option Byte) : Str :=
  match mappings.find? fun m => c = some m.subst && m.applies l with
  | none => []
  | some m => match m.source with
      | .inl index => strdownIf caseSensitive (l.args[index]?.getD [])
      | .inr callback => (text callback).getD []

/-- A template from left to right, with every escape replaced by what `mean` says; a final `%` is an escape
of its own. -/
def expansion (mean : ℕ → Option Byte → Str) : (i : ℕ) → Str → Str
  | _, [] => []
  | i, [b] => if b = chr '%' then mean i none else [b]
  | i, b :: c :: fmt =>
      if b = chr '%' then mean i (some c) ++ expansion mean (i + 2) fmt
      else b :: expansion mean (i + 1) (c :: fmt)

/-- The characters of a template outside of its escapes. -/
def literals : Str → Str
  | [] => []
  | [b] => if b = chr '%' then [] else [b]
  | b :: c :: fmt => if b = chr '%' then literals fmt else b :: literals (c :: fmt)

/-- The text of an escape as it is written. -/
def written (noslash : Bool) (s : Str) : Str := if noslash then convertslashes s else s

section
variable {text : ℕ → Callback → Option Str} {find : ℕ → Option Byte → Except Access (Option Str)}
  {mean : ℕ → Option Byte → Str} {l : IrcLine} {cs noslash : Bool} {fmt : Str} {i : ℕ}

theorem findMapping_meaning (cs : Bool) (hl : l.args ≠ []) (text : Callback → Option Str) (c : Option Byte) :
    ∃ s, findMapping (fun callback => .ok (text callback)) l c cs = .ok s ∧
      s.getD [] = meaning text l cs c := by
  rw [findMapping, findMappingLoop_eq hl, meaning]
  cases hfind : mappings.find? fun m => c = some m.subst && m.applies l with
  | none => exact ⟨_, rfl, rfl⟩
  | some m =>
      dsimp only
      rw [LogMapping.text]
      cases hsource : m.source with
      | inr callback => exact ⟨_, rfl, rfl⟩
      | inl index =>
          -- a mapping that applies has its argument
          have happlies := List.find?_some hfind
          simp only [LogMapping.applies, hsource, Bool.and_eq_true, decide_eq_true_eq] at happlies
          have hlt : index < l.args.length := happlies.2.2
          dsimp only
          rw [List.getElem?_eq_getElem hlt]
          exact ⟨_, rfl, rfl⟩

theorem count_convertslashes (s : Str) : (convertslashes s).count (chr '/') = 0 := by
  rw [List.count_eq_zero, convertslashes, List.mem_map]
  rintro ⟨b, -, hb⟩
  split at hb
  · exact absurd hb (by decide)
  · next hne => exact hne hb

/-- No escape adds a slash. -/
theorem count_expansion (hmean : ∀ i c, (mean i c).count (chr '/') = 0) (i : ℕ) (fmt : Str) :
    (expansion mean i fmt).count (chr '/') = (literals fmt).count (chr '/') := by
  fun_induction expansion mean i fmt with
  | case1 i => rfl
  | case2 i => simp [literals, hmean]
  | case3 i b hb => simp [literals, hb]
  | case4 i c fmt ih => simp [literals, hmean, ih]
  | case5 i b c fmt hb ih => simp [literals, hb, List.count_cons, ih]

/-- The entries of `subst`, where `mean` says what an escape is replaced by. -/
def substEntries (mean : ℕ → Option Byte → Str) : (i : ℕ) → Str → List (Option Str)
  | _, [] => []
  | i, b :: fmt =>
      (if b = chr '%' then some (mean i fmt.head?) else none) :: substEntries mean (i + 1) fmt

/-- The first loop finds a text for every `%`. -/
theorem substTexts_eq (hfind : ∀ i c, substText find noslash i c = .ok (mean i c)) (i : ℕ) (fmt : Str) :
    substTexts find noslash i fmt = .ok (substEntries mean i fmt) := by
  induction fmt generalizing i with
  | nil => rfl
  | cons b fmt ih =>
      rw [substTexts, substEntries, hfind, ih]
      split <;> rfl

/-- An escape is written behind what is there. -/
theorem write_escape {new : Cells Byte} {cur : Str} (h : new.Filled cur) (subst : Str)
    (hroom : cur.length + subst.length < new.length) :
    ∃ new₁ new₂, new.store cur.length none = .ok new₁ ∧ new₁.strncat subst new.length = .ok new₂ ∧
      new₂.length = new.length ∧ new₂.Filled (cur ++ subst) := by
  obtain ⟨new₁, hrun₁, hlen₁, h₁⟩ := h.terminate (by omega)
  have hall : subst.take new.length = subst := List.take_of_length_le (by omega)
  obtain ⟨new₂, hrun₂, hlen₂, h₂⟩ := h₁.strncat (t := subst) (n := new.length) (by rw [hall, hlen₁]; exact hroom)
  rw [hall] at h₂
  exact ⟨new₁, new₂, hrun₁, hrun₂, hlen₂.trans hlen₁, h₂.filled⟩

/-- The second loop writes the expansion, if there is room for all the texts that were found. -/
theorem substLoop_eq {new : Cells Byte} {cur : Str} (h : new.Filled cur)
    (hroom : cur.length + expLen fmt (substEntries mean i fmt) ≤ new.length) :
    ∃ new', substLoop new.length false new cur.length (fmt.zip (substEntries mean i fmt)) = .ok new' ∧
      new'.Holds (cur ++ expansion mean i fmt) := by
  fun_induction expansion mean i fmt generalizing new cur with
  | case1 i =>
      obtain ⟨new', hrun, -, h'⟩ := h.terminate (by simp [expLen] at hroom; omega)
      exact ⟨new', hrun, by simpa using h'⟩
  | case2 i =>
      have hlen : expLen [chr '%'] (substEntries mean i [chr '%']) = (mean i none).length + 2 := by
        simp [expLen, substEntries]
        omega
      obtain ⟨new₁, new₂, hrun₁, hrun₂, hlen₂, h₂⟩ := write_escape h (mean i none) (by omega)
      obtain ⟨new', hrun, -, h'⟩ := h₂.terminate (by rw [List.length_append]; omega)
      rw [List.length_append] at hrun
      refine ⟨new', ?_, h'⟩
      simp only [substEntries, if_true, List.zip_cons_cons, List.zip_nil_left, substLoop, List.head?_nil,
        hrun₁, hrun₂, ok_bind, hrun]
  | case3 i b hb =>
      have hlen : expLen [b] (substEntries mean i [b]) = 2 := by simp [expLen, substEntries, hb]
      obtain ⟨new₁, hrun₁, hlen₁, h₁⟩ := h.store b (by omega)
      obtain ⟨new', hrun, -, h'⟩ := h₁.terminate (by rw [List.length_append, List.length_singleton]; omega)
      rw [List.length_append, List.length_singleton] at hrun
      refine ⟨new', ?_, h'⟩
      simp only [substEntries, if_neg hb, List.zip_cons_cons, List.zip_nil_left, substLoop, hrun₁, ok_bind,
        hrun]
  | case4 i c fmt ih =>
      have hlen : (mean i (some c)).length + 2 + expLen fmt (substEntries mean (i + 2) fmt) ≤
          expLen (chr '%' :: c :: fmt) (substEntries mean i (chr '%' :: c :: fmt)) := by
        rw [show i + 2 = i + 1 + 1 from rfl]
        simp [expLen, substEntries]
        omega
      obtain ⟨new₁, new₂, hrun₁, hrun₂, hlen₂, h₂⟩ :=
        write_escape h (mean i (some c)) (by simp only [expLen] at hlen hroom; omega)
      obtain ⟨new', hrun, h'⟩ := ih h₂ (by rw [List.length_append, hlen₂]; omega)
      rw [List.length_append, hlen₂] at hrun
      refine ⟨new', ?_, by rwa [List.append_assoc] at h'⟩
      simp only [substEntries, if_true, List.zip_cons_cons, substLoop, List.head?_cons, hrun₁, hrun₂, ok_bind,
        hrun]
  | case5 i b c fmt hb ih =>
      have hlen : 1 + expLen (c :: fmt) (substEntries mean (i + 1) (c :: fmt)) =
          expLen (b :: c :: fmt) (substEntries mean i (b :: c :: fmt)) := by
        simp [expLen, substEntries, hb]
        omega
      obtain ⟨new₁, hrun₁, hlen₁, h₁⟩ := h.store b (by simp only [expLen] at hlen hroom; omega)
      obtain ⟨new', hrun, h'⟩ := ih h₁ (by rw [List.length_append, List.length_singleton, hlen₁]; omega)
      rw [List.length_append, List.length_singleton, hlen₁] at hrun
      refine ⟨new', ?_, by rwa [List.append_assoc] at h'⟩
      rw [substEntries, if_neg hb, List.zip_cons_cons, substLoop, if_neg hb, hrun₁, ok_bind, hrun]

/-- What a template with callbacks that return is expanded to. -/
def expanded (text : ℕ → Callback → Option Str) (fmt : Str) (l : IrcLine) (caseSensitive noslash : Bool) : Str :=
  expansion (fun i c => written noslash (meaning (text i) l caseSensitive c)) 0 fmt

/-- Both loops together. -/
theorem customSubst_eq (text : ℕ → Callback → Option Str) (fmt : Str) (hl : l.args ≠ [])
    (memory : ℕ → Option Byte) :
    customSubst (fun i callback => .ok (text i callback)) fmt l cs noslash memory =
      .ok (expanded text fmt l cs noslash) := by
  have hfind : ∀ i c, substText (fun i c => findMapping (fun callback => .ok (text i callback)) l c cs)
      noslash i c = .ok (written noslash (meaning (text i) l cs c)) := by
    intro i c
    obtain ⟨s, hs, hmeaning⟩ := findMapping_meaning cs hl (text i) c
    rw [substText, hs, ok_bind, hmeaning]
    rfl
  rw [customSubst, substTexts_eq hfind, ok_bind]
  generalize hmean : (fun i c => written noslash (meaning (text i) l cs c)) = mean
  have hroom : ([] : Str).length + expLen fmt (substEntries mean 0 fmt) ≤
      ((List.range (expLen fmt (substEntries mean 0 fmt))).map memory).length := by simp
  obtain ⟨new, hrun, hholds⟩ := substLoop_eq (Cells.Filled.nil _) hroom
  rw [List.length_map, List.length_range, List.length_nil] at hrun
  dsimp only
  rw [hrun, ok_bind, hholds.text_eq, List.nil_append, expanded, hmean]

/-- The callbacks of the table return for every line whose mode changes stay in their array. -/
theorem customSubst_run (ctx : SubstContext) (now : ℕ → Moment) (fmt : Str) (hl : l.args ≠ [])
    (hmodes : StaysInBuffer l) (memory : ℕ → Option Byte) :
    customSubst (fun i callback => callback.run ctx (now i) l cs) fmt l cs noslash memory =
      .ok (expanded (fun i callback => (callback.run ctx (now i) l cs).toOption.join) fmt l cs noslash) := by
  obtain ⟨⟨text, htext⟩, -⟩ := hmodes
  have hruns : ∀ i (callback : Callback), callback.run ctx (now i) l cs =
      .ok (callback.run ctx (now i) l cs).toOption.join := by
    intro i callback
    cases callback <;> try rfl
    rw [Callback.run, htext]
    rfl
  rw [← customSubst_eq _ _ hl]
  congr 1
  funext i callback
  exact hruns i callback

end

/-- **A template is expanded from left to right.**  Whatever text the callbacks return for a line with a
command, `custom_subst` replaces each escape by the text of its character, copies every other character, and
stays in the `exp_len` characters it asked for; and if it is to avoid slashes, those of the result are those of
the template outside of its escapes. -/
theorem customSubst_expands (text : ℕ → Callback → Option Str) (fmt : Str) (l : IrcLine) (hl : l.args ≠ [])
    (caseSensitive noslash : Bool) (memory : ℕ → Option Byte) :
    customSubst (fun i callback => .ok (text i callback)) fmt l caseSensitive noslash memory =
      .ok (expanded text fmt l caseSensitive noslash) ∧
    (noslash = true → (expanded text fmt l caseSensitive noslash).count (chr '/') =
      (literals fmt).count (chr '/')) := by
  refine ⟨customSubst_eq text fmt hl memory, ?_⟩
  rintro rfl
  exact count_expansion (fun i c => count_convertslashes _) 0 fmt

/-- The texts of a network without identifier and server. -/
def netTexts : Callback → Option Str
  | .network => some (str "net")
  | .percent => some (str "%")
  | _ => none

/-- The file of a channel whose name has a slash. -/
theorem customSubst_expands_channel :
    customSubst (fun _ callback => .ok (netTexts callback)) (str "logs/%N/%c%%%")
      ⟨some (str "joe!u@h"), [str "JOIN", str "#A/b"], .withoutColon⟩ true true (fun _ => some (chr 'x')) =
        .ok (str "logs/net/#a_b%") := by
  have run := (customSubst_expands (fun _ => netTexts) (str "logs/%N/%c%%%")
    ⟨some (str "joe!u@h"), [str "JOIN", str "#A/b"], .withoutColon⟩ (by simp) true true
      (fun _ => some (chr 'x'))).1
  have text : expanded (fun _ => netTexts) (str "logs/%N/%c%%%")
      ⟨some (str "joe!u@h"), [str "JOIN", str "#A/b"], .withoutColon⟩ true true = str "logs/net/#a_b%" := by
    decide +kernel
  rw [text] at run
  exact run

end Ctrlproxy.Log
