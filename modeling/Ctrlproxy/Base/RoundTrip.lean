import Ctrlproxy.Base.Print

/-!
# Base — parsing and printing

A line end at the end of a text makes no difference to `irc_parse_line`
(`ircParseLine_append_eol`), so what `irc_line_string` and `irc_line_string_nl` print is parsed back
alike.  The other way round, a text without a line end is printed as it was, but for further spaces
behind an origin.
-/

namespace Ctrlproxy

/-! ### A line end at the end -/

theorem parseArgs_append_eol (split : Bool) (cur p : Str) :
    parseArgs split cur (p ++ str "\r\n") = parseArgs split cur p := by
  have crlf : ∀ split cur, parseArgs split cur (str "\r\n") = ([cur], .withoutColon) :=
    fun split cur => parseArgs_eol split cur _ (.inl rfl)
  fun_induction parseArgs split cur p with
  | case1 split cur => exact crlf split cur
  | case2 split cur b hs p ih =>
      obtain ⟨rfl, rfl⟩ := hs
      rw [List.cons_append, List.cons_append, parseArgs_space_colon, ih]
  | case3 split cur b hs c p hc r ih =>
      obtain ⟨rfl, rfl⟩ := hs
      have hne : (c :: p ++ str "\r\n").head? ≠ some (chr ':') := fun h => hc (Option.some.inj h)
      rw [List.cons_append, parseArgs_space _ _ hne, ih]
  | case4 split cur b hs =>
      obtain ⟨rfl, rfl⟩ := hs
      rw [List.singleton_append, parseArgs_space _ _ (by decide), crlf]
  | case5 split cur b p hs hb => exact parseArgs_eol split cur _ hb
  | case6 split cur b p hs hb ih =>
      rw [List.cons_append, parseArgs_char split cur _ (fun h e => hs ⟨e, h⟩) (not_or.mp hb), ih]

theorem ircParseLine_append_eol (d : Str) : ircParseLine (d ++ str "\r\n") = ircParseLine d := by
  cases d with
  | nil => decide
  | cons b d =>
      rw [List.cons_append, ircParseLine, ircParseLine]
      by_cases hb : b = chr ':'
      · rw [if_pos hb, if_pos hb, List.dropWhile_append]
        cases hrest : d.dropWhile (· ≠ chr ' ') with
        | nil => rfl
        | cons c rest =>
            -- the origin ends before the line end, and so do the spaces behind it
            have hmem : ∃ x ∈ d, ¬decide (x ≠ chr ' ') = true := by
              by_contra hno
              push Not at hno
              rw [List.dropWhile_eq_nil_iff.mpr hno] at hrest
              cases hrest
            obtain ⟨x, hx, hspace⟩ := hmem
            have htake : (d ++ str "\r\n").takeWhile (· ≠ chr ' ') = d.takeWhile (· ≠ chr ' ') := by
              rw [List.takeWhile_append, if_neg]
              intro hlen
              have hall := List.takeWhile_eq_self_iff.mp
                ((List.takeWhile_prefix _).eq_of_length hlen)
              exact hspace (hall x hx)
            have hskip : (c :: rest ++ str "\r\n").dropWhile (· = chr ' ') =
                (c :: rest).dropWhile (· = chr ' ') ++ str "\r\n" := by
              rw [List.dropWhile_append]
              split
              · next hnil =>
                rw [List.isEmpty_iff.mp hnil]
                rfl
              · rfl
            rw [if_neg (by simp), htake]
            dsimp only [List.cons_append] at hskip ⊢
            rw [hskip, parseArgs_append_eol]
      · rw [if_neg hb, if_neg hb]
        have hargs := parseArgs_append_eol true [] (b :: d)
        rw [List.cons_append] at hargs
        rw [hargs]

/-- A printed line is parsed back without its line end, too. -/
theorem IrcLine.Printable.parse_string {l : IrcLine} (h : l.Printable) :
    ircParseLine (ircLineString l) = some l := by
  have back := h.parse_print []
  rw [List.append_nil, ircLineStringNl, ircParseLine_append_eol] at back
  exact back

/-! ### What the parser makes, printed -/

/-- Behind a colon a text without a line end is one argument. -/
theorem parseArgs_unsplit {p : Str} (hp : NoEol p) (cur : Str) :
    (parseArgs false cur p).1 = [cur ++ p] := by
  have hall := parseArgs_free cur p [] hp
  rw [List.append_nil, parseArgs_nil] at hall
  rw [hall]

/-- A text without a line end is printed as it was. -/
theorem printArgs_parseArgs {p : Str} (hp : NoEol p) (cur : Str) (first : Bool) :
    printArgs ((parseArgs true cur p).2 == .withColon) first (parseArgs true cur p).1 = cur ++ p := by
  induction p generalizing cur first with
  | nil =>
      rw [parseArgs_nil, List.append_nil]
      cases first <;> rfl
  | cons b p ih =>
      have hb : b ≠ chr '\r' ∧ b ≠ chr '\n' := hp b List.mem_cons_self
      have hrest : NoEol p := fun c hc => hp c (List.mem_cons_of_mem _ hc)
      by_cases hs : b = chr ' '
      · subst hs
        by_cases hcolon : p.head? = some (chr ':')
        · cases p with
          | nil => cases hcolon
          | cons c p =>
              cases hcolon
              have htext : NoEol p := fun c hc => hrest c (List.mem_cons_of_mem _ hc)
              rw [parseArgs_space_colon, parseArgs_unsplit htext, List.nil_append]
              rfl
        · obtain ⟨a, as, hargs, -⟩ := parseArgs_spelled [] p word_nil
          have htail := ih hrest [] false
          rw [parseArgs_space cur p hcolon]
          dsimp only
          rw [hargs, List.nil_append] at htail
          rw [hargs, printArgs_cons, htail]
      · rw [parseArgs_char true cur p (fun _ => hs) hb, ih hrest, List.append_assoc]
        rfl

/-- A parsed line has an argument, and says whether its last one had a colon. -/
theorem IrcLine.Printable.string_eq {l : IrcLine} (h : l.Printable) :
    ircLineString l = (l.origin.elim [] fun o => chr ':' :: o ++ [chr ' ']) ++
      printArgs (l.hasEndcolon == .withColon) true l.args := by
  obtain ⟨-, a, as, hargs, -, has, -, -⟩ := h
  have htext := ircLineStringNl_append hargs has []
  rw [List.append_nil, List.append_nil, ← List.append_assoc, ← hargs] at htext
  exact List.append_cancel_right htext

theorem ircLineString_parse {d : Str} {l : IrcLine} (h : ircParseLine d = some l) (hd : NoEol d)
    (hspace : ∀ o t, d = chr ':' :: o ++ chr ' ' :: t → chr ' ' ∉ o → t.head? ≠ some (chr ' ')) :
    ircLineString l = d := by
  rw [(ircParseLine_printable h).string_eq]
  by_cases hcolon : d.head? = some (chr ':')
  · cases d with
    | nil => cases hcolon
    | cons b d =>
        cases hcolon
        by_cases hmem : chr ' ' ∈ d
        · obtain ⟨o, t, rfl, ho⟩ := List.eq_append_cons_of_mem hmem
          have ht := hspace o t rfl ho
          have hrest : NoEol t := fun c hc =>
            hd c (List.mem_cons_of_mem _ (List.mem_append_right _ (List.mem_cons_of_mem _ hc)))
          have hparse := ircParseLine_origin ho ht
          rw [List.cons_append, h] at hparse
          cases hparse
          rw [printArgs_parseArgs hrest]
          simp
        · have hnone : d.dropWhile (· ≠ chr ' ') = [] := dropWhile_ne_eq_nil.mpr hmem
          rw [ircParseLine, if_pos rfl, hnone] at h
          cases h
  · rw [ircParseLine_args hcolon] at h
    cases h
    rw [printArgs_parseArgs hd]
    rfl

/-- **Parsing and printing are inverse.** A parsed line, printed with or without its line end, is
parsed back, so no other line is printed alike; and a text of one line, with no more than one space
behind its origin, is what its line is printed as. -/
theorem ircParseLine_roundTrip {d : Str} {l : IrcLine} (h : ircParseLine d = some l) :
    ircParseLine (ircLineString l) = some l ∧ ircParseLine (ircLineStringNl l) = some l ∧
    (∀ d' l', ircParseLine d' = some l' → ircLineString l' = ircLineString l → l' = l) ∧
    (NoEol d → (∀ o t, d = chr ':' :: o ++ chr ' ' :: t → chr ' ' ∉ o →
      t.head? ≠ some (chr ' ')) → ircLineString l = d) := by
  have back := (ircParseLine_printable h).parse_string
  refine ⟨back, ?_, fun d' l' h' heq => ?_, ircLineString_parse h⟩
  · rw [ircLineStringNl, ircParseLine_append_eol, back]
  · have hsame := (ircParseLine_printable h').parse_string
    rw [heq, back] at hsame
    exact (Option.some.inj hsame).symm

/-- Where the second space after an origin would be. -/
theorem head?_behind_origin {d : Str}
    (hd : (d.tail.dropWhile (· ≠ chr ' ')).tail.head? ≠ some (chr ' ')) :
    ∀ o t, d = chr ':' :: o ++ chr ' ' :: t → chr ' ' ∉ o → t.head? ≠ some (chr ' ') := by
  rintro o t rfl ho
  have hword : ∀ b ∈ o, decide (b ≠ chr ' ') = true := fun b hb => decide_eq_true fun e => ho (e ▸ hb)
  have hskip : (o ++ chr ' ' :: t).dropWhile (· ≠ chr ' ') = chr ' ' :: t := by
    rw [List.dropWhile_append_of_pos hword]
    simp
  rw [List.cons_append, List.tail_cons, hskip] at hd
  exact hd

/-- Spaces, an empty argument, and text behind a colon. -/
theorem ircParseLine_roundTrip_message :
    ircParseLine (str ":a!b@c PRIVMSG  :: d ") =
      some ⟨some (str "a!b@c"), [str "PRIVMSG", [], str ": d "], .withColon⟩ ∧
    ircLineString ⟨some (str "a!b@c"), [str "PRIVMSG", [], str ": d "], .withColon⟩ =
      str ":a!b@c PRIVMSG  :: d " := by
  have hparse : ircParseLine (str ":a!b@c PRIVMSG  :: d ") =
      some ⟨some (str "a!b@c"), [str "PRIVMSG", [], str ": d "], .withColon⟩ := by decide +kernel
  exact ⟨hparse, (ircParseLine_roundTrip hparse).2.2.2 (by decide)
    (head?_behind_origin (by decide +kernel))⟩

end Ctrlproxy
