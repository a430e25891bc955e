import Ctrlproxy.Base.Line

/-!
# Base — a printed line is parsed back

What `irc_parse_line` makes of a string is special: no argument but the last has a space in it,
only the first of them can begin with a colon, and nothing contains a line end (`Spelled`).  Such
a line survives being printed by `irc_line_string_nl` and parsed again (`parse_print`), also when
other text follows its line end.
-/

namespace Ctrlproxy

/-- A string without a line end. -/
def NoEol (s : Str) : Prop := ∀ b ∈ s, b ≠ chr '\r' ∧ b ≠ chr '\n'

instance (s : Str) : Decidable (NoEol s) := inferInstanceAs (Decidable (∀ _ ∈ _, _))

/-- The encoding of U+2029, which ends a line for `g_io_channel_read_line` too. -/
def paragraphSeparator : Str := [⟨0xE2, by decide⟩, ⟨0x80, by decide⟩, ⟨0xA9, by decide⟩]

/-- A string that stays one argument without a colon in front of it. -/
def Word (s : Str) : Prop := ∀ b ∈ s, b ≠ chr ' ' ∧ b ≠ chr '\r' ∧ b ≠ chr '\n'

instance (s : Str) : Decidable (Word s) := inferInstanceAs (Decidable (∀ _ ∈ _, _))

theorem Word.noEol {s : Str} (h : Word s) : NoEol s := fun b hb => (h b hb).2

theorem NoEol.append {s t : Str} (hs : NoEol s) (ht : NoEol t) : NoEol (s ++ t) := by
  intro b hb
  rcases List.mem_append.mp hb with hb | hb
  · exact hs b hb
  · exact ht b hb

theorem word_nil : Word [] := by
  intro b hb
  cases hb

theorem Word.snoc {s : Str} {b : Byte} (h : Word s)
    (hb : b ≠ chr ' ' ∧ b ≠ chr '\r' ∧ b ≠ chr '\n') : Word (s ++ [b]) := by
  intro c hc
  rcases List.mem_append.mp hc with hc | hc
  · exact h c hc
  · cases List.mem_singleton.mp hc
    exact hb

/-- The arguments behind the first as the parser leaves them. -/
inductive Spelled : List Str → HasEndcolon → Prop
  | nil : Spelled [] .withoutColon
  | colon {a : Str} : NoEol a → Spelled [a] .withColon
  | cons {a : Str} {as : List Str} {c : HasEndcolon} :
      Word a → a.head? ≠ some (chr ':') → Spelled as c → Spelled (a :: as) c

theorem Spelled.noEol {as : List Str} {c : HasEndcolon} (h : Spelled as c) :
    ∀ a ∈ as, NoEol a := by
  induction h with
  | nil =>
      intro a ha
      cases ha
  | colon ha =>
      intro b hb
      cases List.mem_singleton.mp hb
      exact ha
  | cons ha _ _ ih =>
      intro b hb
      rcases List.mem_cons.mp hb with rfl | hb
      · exact ha.noEol
      · exact ih b hb

/-- The parser says of every line whether its last argument had a colon. -/
theorem Spelled.requiresColon {origin : Option Str} {args as : List Str} {c : HasEndcolon}
    (h : Spelled as c) : requiresColon ⟨origin, args, c⟩ = (c == .withColon) := by
  induction h with
  | nil => rfl
  | colon => rfl
  | cons _ _ _ ih =>
      exact ih

/-! ### The parser, character by character -/

theorem parseArgs_nil (split : Bool) (cur : Str) :
    parseArgs split cur [] = ([cur], .withoutColon) := by
  cases split <;> rfl

theorem parseArgs_eol (split : Bool) (cur p : Str) {b : Byte} (hb : b = chr '\r' ∨ b = chr '\n') :
    parseArgs split cur (b :: p) = ([cur], .withoutColon) := by
  have hs : b ≠ chr ' ' := by rcases hb with rfl | rfl <;> decide
  cases p <;> exact (if_neg fun h => hs h.1).trans (if_pos hb)

theorem parseArgs_char (split : Bool) (cur p : Str) {b : Byte} (hs : split = true → b ≠ chr ' ')
    (hb : b ≠ chr '\r' ∧ b ≠ chr '\n') :
    parseArgs split cur (b :: p) = parseArgs split (cur ++ [b]) p := by
  have hs' : ¬(b = chr ' ' ∧ split = true) := fun h => hs h.2 h.1
  cases p <;> exact (if_neg hs').trans (if_neg (not_or.mpr hb))

theorem parseArgs_space_colon (cur p : Str) :
    parseArgs true cur (chr ' ' :: chr ':' :: p) =
      (cur :: (parseArgs false [] p).1, .withColon) :=
  (if_pos ⟨rfl, rfl⟩).trans (if_pos rfl)

theorem parseArgs_space (cur p : Str) (hp : p.head? ≠ some (chr ':')) :
    parseArgs true cur (chr ' ' :: p) =
      (cur :: (parseArgs true [] p).1, (parseArgs true [] p).2) := by
  cases p with
  | nil => exact if_pos ⟨rfl, rfl⟩
  | cons c p =>
      have hc : c ≠ chr ':' := fun h => hp (by rw [h]; rfl)
      exact (if_pos ⟨rfl, rfl⟩).trans (if_neg hc)

/-! ### What the parser makes -/

/-- Behind a colon everything up to the line end is one argument. -/
theorem parseArgs_colon (cur p : Str) (hcur : NoEol cur) :
    ∃ a, (parseArgs false cur p).1 = [a] ∧ NoEol a := by
  induction p generalizing cur with
  | nil => exact ⟨cur, by rw [parseArgs_nil], hcur⟩
  | cons b p ih =>
      by_cases hb : b = chr '\r' ∨ b = chr '\n'
      · exact ⟨cur, by rw [parseArgs_eol false cur p hb], hcur⟩
      · rw [not_or] at hb
        rw [parseArgs_char false cur p (fun h => nomatch h) hb]
        refine ih _ (hcur.append ?_)
        intro c hc
        cases List.mem_singleton.mp hc
        exact hb

/-- The argument being read becomes a word, and the others are spelled. -/
theorem parseArgs_spelled (cur p : Str) (hcur : Word cur) :
    ∃ a as, (parseArgs true cur p).1 = a :: as ∧ Word a ∧ Spelled as (parseArgs true cur p).2 ∧
      cur <+: a ∧ (a.head? = some (chr ':') → (cur ++ p).head? = some (chr ':')) := by
  induction p generalizing cur with
  | nil =>
      rw [parseArgs_nil]
      exact ⟨cur, [], rfl, hcur, .nil, List.prefix_rfl, fun h => by simpa using h⟩
  | cons b p ih =>
      -- the first character of `cur`, if it has one, stays the first
      have hhead : cur.head? = some (chr ':') → (cur ++ b :: p).head? = some (chr ':') := by
        intro h
        rw [List.head?_append, h]
        rfl
      by_cases hs : b = chr ' '
      · subst hs
        by_cases hp : p.head? = some (chr ':')
        · obtain ⟨p, rfl⟩ : ∃ p', p = chr ':' :: p' := by
            cases p with
            | nil => cases hp
            | cons c p' => exact ⟨p', by cases hp; rfl⟩
          obtain ⟨a, ha, hna⟩ := parseArgs_colon [] p word_nil.noEol
          rw [parseArgs_space_colon, ha]
          exact ⟨cur, [a], rfl, hcur, .colon hna, List.prefix_rfl, hhead⟩
        · obtain ⟨a, as, h₁, h₂, h₃, -, h₅⟩ := ih [] word_nil
          rw [parseArgs_space cur p hp, h₁]
          exact ⟨cur, a :: as, rfl, hcur, .cons h₂ (fun h => hp (h₅ h)) h₃, List.prefix_rfl,
            hhead⟩
      · by_cases hb : b = chr '\r' ∨ b = chr '\n'
        · rw [parseArgs_eol true cur p hb]
          exact ⟨cur, [], rfl, hcur, .nil, List.prefix_rfl, hhead⟩
        · rw [not_or] at hb
          rw [parseArgs_char true cur p (fun _ => hs) hb]
          obtain ⟨a, as, h₁, h₂, h₃, h₄, h₅⟩ := ih (cur ++ [b]) (hcur.snoc ⟨hs, hb⟩)
          exact ⟨a, as, h₁, h₂, h₃, (List.prefix_append _ _).trans h₄,
            fun h => by simpa using h₅ h⟩

/-- Nothing follows an empty first argument, unless the text began with a space. -/
theorem parseArgs_empty {p : Str} (hp : p.head? ≠ some (chr ' '))
    {as : List Str} (h : (parseArgs true [] p).1 = [] :: as) : as = [] := by
  cases p with
  | nil =>
      rw [parseArgs_nil] at h
      cases h
      rfl
  | cons b p =>
      have hs : b ≠ chr ' ' := fun e => hp (by rw [e]; rfl)
      by_cases hb : b = chr '\r' ∨ b = chr '\n'
      · rw [parseArgs_eol true [] p hb] at h
        cases h
        rfl
      · rw [not_or] at hb
        rw [parseArgs_char true [] p (fun _ => hs) hb] at h
        obtain ⟨a, as', h₁, -, -, h₄, -⟩ := parseArgs_spelled [b] p (word_nil.snoc ⟨hs, hb⟩)
        rw [List.nil_append, h₁] at h
        cases h
        cases List.prefix_nil.mp h₄

/-- A line that can be told from its text. -/
structure IrcLine.Printable (l : IrcLine) : Prop where
  origin : ∀ o ∈ l.origin, chr ' ' ∉ o
  args : ∃ a as, l.args = a :: as ∧ Word a ∧ Spelled as l.hasEndcolon ∧
    (l.origin = none → a.head? ≠ some (chr ':')) ∧ (l.origin ≠ none → a = [] → as = [])

theorem ircParseLine_args {d : Str} (hd : d.head? ≠ some (chr ':')) :
    ircParseLine d = some ⟨none, (parseArgs true [] d).1, (parseArgs true [] d).2⟩ := by
  cases d with
  | nil => rfl
  | cons b d =>
      have hb : b ≠ chr ':' := fun e => hd (by rw [e]; rfl)
      simp only [ircParseLine, if_neg hb]

theorem ircParseLine_origin {o t : Str} (ho : chr ' ' ∉ o) (ht : t.head? ≠ some (chr ' ')) :
    ircParseLine (chr ':' :: o ++ chr ' ' :: t) =
      some ⟨some o, (parseArgs true [] t).1, (parseArgs true [] t).2⟩ := by
  have hw : ∀ b ∈ o, decide (b ≠ chr ' ') = true := fun b hb =>
    decide_eq_true fun e => ho (e ▸ hb)
  have htake : (o ++ chr ' ' :: t).takeWhile (· ≠ chr ' ') = o := by
    rw [List.takeWhile_append_of_pos hw]
    simp
  have hdrop : (o ++ chr ' ' :: t).dropWhile (· ≠ chr ' ') = chr ' ' :: t := by
    rw [List.dropWhile_append_of_pos hw]
    simp
  have hspace : (chr ' ' :: t).dropWhile (· = chr ' ') = t := by
    cases t with
    | nil => simp
    | cons b t =>
        have hb : b ≠ chr ' ' := fun e => ht (by rw [e]; rfl)
        simp [hb]
  simp only [List.cons_append, ircParseLine, if_true, htake, hdrop, hspace]

/-- The parser makes printable lines. -/
theorem ircParseLine_printable {d : Str} {l : IrcLine} (h : ircParseLine d = some l) :
    l.Printable := by
  unfold ircParseLine at h
  split at h
  · next b d' =>
    split at h
    · split at h
      · cases h
      · next rest hrest =>
        cases h
        obtain ⟨a, as, h₁, h₂, h₃, -, -⟩ :=
          parseArgs_spelled [] ((d'.dropWhile (· ≠ chr ' ')).dropWhile (· = chr ' ')) word_nil
        refine ⟨?_, a, as, h₁, h₂, h₃, fun h => (nomatch h), ?_⟩
        · rintro o ⟨⟩ hm
          simpa using List.mem_takeWhile_imp hm
        · rintro - rfl
          refine parseArgs_empty ?_ h₁
          intro hh
          have := List.head?_dropWhile_not (fun b => decide (b = chr ' '))
            (d'.dropWhile (· ≠ chr ' '))
          rw [hh] at this
          simp at this
    · next hb =>
      cases h
      obtain ⟨a, as, h₁, h₂, h₃, -, h₅⟩ := parseArgs_spelled [] (b :: d') word_nil
      refine ⟨nofun, a, as, h₁, h₂, h₃, fun _ hh => ?_, fun h => absurd rfl h⟩
      exact hb (Option.some.inj (h₅ hh))
  · cases h
    exact ⟨nofun, [], [], rfl, word_nil, .nil, fun _ => by simp, fun h => absurd rfl h⟩

/-! ### What the parser makes of a printed line -/

/-- What may stand behind a printed line: a line end, and anything after it. -/
def AtEol (rest : Str) : Prop := rest.head? = some (chr '\r') ∨ rest.head? = some (chr '\n')

theorem AtEol.parseArgs {rest : Str} (h : AtEol rest) (split : Bool) (cur : Str) :
    parseArgs split cur rest = ([cur], .withoutColon) := by
  cases rest with
  | nil => rcases h with h | h <;> cases h
  | cons b rest =>
      refine parseArgs_eol split cur rest ?_
      rcases h with h | h
      · exact .inl (Option.some.inj h)
      · exact .inr (Option.some.inj h)

theorem AtEol.head?_ne {rest : Str} (h : AtEol rest) : rest.head? ≠ some (chr ':') := by
  rcases h with h | h <;> rw [h] <;> decide

theorem parseArgs_word (cur a p : Str) (ha : Word a) :
    parseArgs true cur (a ++ p) = parseArgs true (cur ++ a) p := by
  induction a generalizing cur with
  | nil => rw [List.nil_append, List.append_nil]
  | cons b a ih =>
      have hb := ha b List.mem_cons_self
      rw [List.cons_append, parseArgs_char true cur _ (fun _ => hb.1) hb.2,
        ih (cur ++ [b]) (fun c hc => ha c (List.mem_cons_of_mem _ hc)), List.append_assoc]
      rfl

theorem parseArgs_free (cur a p : Str) (ha : NoEol a) :
    parseArgs false cur (a ++ p) = parseArgs false (cur ++ a) p := by
  induction a generalizing cur with
  | nil => rw [List.nil_append, List.append_nil]
  | cons b a ih =>
      rw [List.cons_append, parseArgs_char false cur _ (fun h => nomatch h) (ha b List.mem_cons_self),
        ih (cur ++ [b]) (fun c hc => ha c (List.mem_cons_of_mem _ hc)), List.append_assoc]
      rfl

theorem printArgs_singleton (colon first : Bool) (a : Str) :
    printArgs colon first [a] = if colon && !first then chr ':' :: a else a := rfl

theorem printArgs_cons (colon first : Bool) (a b : Str) (as : List Str) :
    printArgs colon first (a :: b :: as) = a ++ chr ' ' :: printArgs colon false (b :: as) := rfl

theorem printArgs_head? (colon first : Bool) (a : Str) (as : List Str) (rest : Str)
    (ha : a.head? ≠ some (chr ':')) (hr : AtEol rest) (hc : as = [] → colon = false ∨ first = true) :
    (printArgs colon first (a :: as) ++ rest).head? ≠ some (chr ':') := by
  obtain ⟨t, ht, hne⟩ : ∃ t, printArgs colon first (a :: as) ++ rest = a ++ t ∧
      t.head? ≠ some (chr ':') := by
    cases as with
    | nil =>
        refine ⟨rest, ?_, hr.head?_ne⟩
        rcases hc rfl with rfl | rfl <;> simp [printArgs_singleton]
    | cons b as =>
        refine ⟨chr ' ' :: printArgs colon false (b :: as) ++ rest, ?_, ?_⟩
        · rw [printArgs_cons, List.append_assoc]
        · rw [List.cons_append, List.head?_cons]
          decide
  rw [ht, List.head?_append]
  cases h : a.head? with
  | none => exact hne
  | some b =>
      rw [h] at ha
      exact ha

/-- Printed arguments are parsed back. -/
theorem parseArgs_printArgs {a rest : Str} {as : List Str} {c : HasEndcolon} (ha : Word a)
    (has : Spelled as c) (hr : AtEol rest) (cur : Str) (first : Bool) :
    parseArgs true cur (printArgs (c == .withColon) first (a :: as) ++ rest) =
      ((cur ++ a) :: as, c) := by
  induction has generalizing a cur first with
  | nil =>
      have : printArgs (HasEndcolon.withoutColon == .withColon) first [a] = a := rfl
      rw [this, parseArgs_word cur a rest ha, hr.parseArgs]
  | @colon b hb =>
      have : printArgs (HasEndcolon.withColon == .withColon) first [a, b] ++ rest =
          a ++ chr ' ' :: chr ':' :: (b ++ rest) := by
        simp [printArgs_cons, printArgs_singleton]
      rw [this, parseArgs_word cur a _ ha, parseArgs_space_colon, parseArgs_free [] b rest hb,
        hr.parseArgs]
      rfl
  | @cons b as c hb hne has ih =>
      have hlast : as = [] → (c == .withColon) = false ∨ false = true := by
        rintro rfl
        cases has
        exact .inl rfl
      rw [printArgs_cons, List.append_assoc, parseArgs_word cur a _ ha, List.cons_append,
        parseArgs_space _ _ (printArgs_head? _ false b as rest hne hr hlast), ih hb [] false]
      rfl

theorem ircLineStringNl_append {l : IrcLine} {a : Str} {as : List Str} (hl : l.args = a :: as)
    (has : Spelled as l.hasEndcolon) (rest : Str) :
    ircLineStringNl l ++ rest =
      (l.origin.elim [] fun o => chr ':' :: o ++ [chr ' ']) ++
        (printArgs (l.hasEndcolon == .withColon) true (a :: as) ++ (str "\r\n" ++ rest)) := by
  obtain ⟨origin, args, c⟩ := l
  dsimp only at hl has ⊢
  subst hl
  rw [ircLineStringNl, ircLineString, if_neg (by simp [IrcLine.argc]), has.requiresColon]
  cases origin <;> simp

/-- A word does not begin with a space, and what is printed after it, if it is empty, neither. -/
theorem printArgs_no_space {a : Str} {as : List Str} (colon : Bool) {rest : Str} (ha : Word a)
    (hr : AtEol rest) (hempty : a = [] → as = []) :
    (printArgs colon true (a :: as) ++ rest).head? ≠ some (chr ' ') := by
  cases a with
  | nil =>
      rw [hempty rfl]
      simp only [printArgs_singleton, Bool.not_true, Bool.and_false, Bool.false_eq_true, if_false,
        List.nil_append]
      rcases hr with hr | hr <;> rw [hr] <;> decide
  | cons b a =>
      obtain ⟨t, ht⟩ : ∃ t, printArgs colon true ((b :: a) :: as) ++ rest = b :: t := by
        cases as with
        | nil => exact ⟨a ++ rest, by simp [printArgs_singleton]⟩
        | cons c as => exact ⟨_, by rw [printArgs_cons, List.cons_append]; rfl⟩
      rw [ht]
      exact fun h => (ha b List.mem_cons_self).1 (Option.some.inj h)

theorem printArgs_noEol (colon first : Bool) {as : List Str} (h : ∀ a ∈ as, NoEol a) :
    NoEol (printArgs colon first as) := by
  induction as generalizing first with
  | nil => exact word_nil.noEol
  | cons a as ih =>
      have ha := h a List.mem_cons_self
      cases as with
      | nil =>
          rw [printArgs_singleton]
          split
          · exact NoEol.append (s := [chr ':']) (by decide) ha
          · exact ha
      | cons b as =>
          rw [printArgs_cons]
          refine ha.append (NoEol.append (s := [chr ' ']) (by decide) ?_)
          exact ih false fun c hc => h c (List.mem_cons_of_mem _ hc)

/-- **A printed line is parsed back**, also when it is followed by other text. -/
theorem IrcLine.Printable.parse_print {l : IrcLine} (h : l.Printable) (rest : Str) :
    ircParseLine (ircLineStringNl l ++ rest) = some l := by
  obtain ⟨ho, a, as, hargs, ha, has, hcolon, hempty⟩ := h
  have hr : AtEol (str "\r\n" ++ rest) := .inl rfl
  have hback := parseArgs_printArgs ha has hr [] true
  rw [ircLineStringNl_append hargs has]
  obtain ⟨origin, args, c⟩ := l
  dsimp only at ho hargs has hcolon hempty hback ⊢
  subst hargs
  generalize htext : printArgs (c == .withColon) true (a :: as) ++ (str "\r\n" ++ rest) = text
    at hback ⊢
  cases origin with
  | none =>
      have hne : text.head? ≠ some (chr ':') := by
        rw [← htext]
        exact printArgs_head? _ true a as _ (hcolon rfl) hr (fun _ => .inr rfl)
      rw [Option.elim_none, List.nil_append, ircParseLine_args hne, hback]
      rfl
  | some o =>
      have hne : text.head? ≠ some (chr ' ') := by
        rw [← htext]
        exact printArgs_no_space _ ha hr (hempty (fun h => nomatch h))
      rw [Option.elim_some, List.append_assoc, List.singleton_append,
        ircParseLine_origin (ho o rfl) hne, hback]
      rfl

/-- A printed line has one line end, its own. -/
theorem IrcLine.Printable.noEol {l : IrcLine} (h : l.Printable) (ho : ∀ o ∈ l.origin, NoEol o) :
    NoEol (ircLineString l) := by
  obtain ⟨-, a, as, hargs, ha, has, -, -⟩ := h
  have hall : ∀ b ∈ l.args, NoEol b := by
    rw [hargs]
    intro b hb
    rcases List.mem_cons.mp hb with rfl | hb
    · exact ha.noEol
    · exact has.noEol b hb
  rw [ircLineString]
  split
  · exact word_nil.noEol
  · refine NoEol.append ?_ (printArgs_noEol _ _ hall)
    cases hor : l.origin with
    | none => exact word_nil.noEol
    | some o =>
        refine NoEol.append ?_ (by decide)
        exact NoEol.append (s := [chr ':']) (by decide) (ho o hor)

end Ctrlproxy
