import Ctrlproxy.Base.RoundTrip
import Ctrlproxy.Lib.Cells
import Ctrlproxy.Lib.Lists

/-!
# Base — the parser in its buffer

`irc_parse_line` splits a copy of its input in place: it writes terminators over separators while a
pointer scans the copy, and puts pointers into a vector that it has sized by counting spaces.  Here is
that program, where every access that leaves the copy or the vector is a fault
(`ircParseLineInPlace`), and the grammar it reads (`lineGrammar`).  It never faults, and both are
`ircParseLine` (`Base/Line.lean`).
-/

namespace Ctrlproxy
open Outcome

/-! ### The program -/

/-- The variables of the loop of `irc_parse_line`: `data`, `l->args`, `l->argc`, `p`, `dosplit` and
`l->has_endcolon`.  A pointer into the copy is the position it leads to. -/
structure Scan where
  data : Cells Byte
  args : Cells ℕ
  argc : ℕ
  p : ℕ
  dosplit : Bool
  hasEndcolon : HasEndcolon

/-- What the loop does at a separator. -/
def Scan.split (s : Scan) (b : Byte) : Except Access Scan :=
  if b = chr ' ' ∧ s.dosplit = true then do
    let data ← s.data.store s.p none
    let args ← s.args.store (s.argc + 1) (some (s.p + 1))
    if (← data.load (s.p + 1)) = some (chr ':') then do
      let args ← args.store (s.argc + 1) (some (s.p + 1 + 1))
      pure { s with
        data := data, args := args, argc := s.argc + 1, dosplit := false, hasEndcolon := .withColon }
    else pure { s with data := data, args := args, argc := s.argc + 1 }
  else pure s

/-- The loop of `irc_parse_line`, for as many rounds as there are cells. -/
def Scan.loop : ℕ → Scan → Except Access Scan
  | 0, _ => .error .read
  | n + 1, s => do
      match ← s.data.load s.p with
      | none => pure s
      | some b => do
          let s ← s.split b
          -- the character is read again: it may be a terminator now
          let v ← s.data.load s.p
          if v = some (chr '\r') ∨ v = some (chr '\n') then do
            let data ← s.data.store s.p none
            pure { s with data := data }
          else Scan.loop n { s with p := s.p + 1 }

/-- `irc_parse_line` behind the origin, with `argc`.  `fresh` is what `g_new` finds in the vector. -/
def splitInPlace (fresh : ℕ → Option ℕ) (origin : Option Str) (data : Cells Byte) (p : ℕ) :
    Except Access (ℕ × IrcLine) := do
  let estimate := (← data.textAt p).count (chr ' ')
  let args : Cells ℕ := (List.range (estimate + 2)).map fresh
  let args ← args.store 0 (some p)
  let s ← Scan.loop data.length ⟨data, args, 0, p, true, .withoutColon⟩
  let args ← s.args.store (s.argc + 1) none
  let words ← (← args.text).mapM s.data.textAt
  pure (s.argc + 1, ⟨origin, words, s.hasEndcolon⟩)

/-- `irc_parse_line`. -/
def ircParseLineInPlace (fresh : ℕ → Option ℕ) (d : Str) : Except Access (Option (ℕ × IrcLine)) := do
  let data : Cells Byte := d.map some ++ [none]
  if (← data.load 0) = some (chr ':') then do
    let p ← data.seek (fun v => v = none ∨ v = some (chr ' ')) 0
    match ← data.load p with
    | none => pure none
    | some _ => do
        let data ← data.store p none
        let origin ← data.textAt 1
        let p ← data.seek (fun v => v ≠ some (chr ' ')) (p + 1)
        (splitInPlace fresh (some origin) data p).map some
  else (splitInPlace fresh none data 0).map some

/-! ### The grammar -/

/-- What is in front of the first space that a colon follows, and what is behind the colon. -/
def trailing : Str → Option (Str × Str)
  | [] => none
  | b :: s =>
      if b = chr ' ' ∧ s.head? = some (chr ':') then some ([], s.tail)
      else (trailing s).map fun (before, last) => (b :: before, last)

/-- A text up to its first line end. -/
def cutLine (s : Str) : Str := s.takeWhile fun b => b ≠ chr '\r' ∧ b ≠ chr '\n'

/-- The arguments of a line, and whether the last one is behind a colon. -/
def argsGrammar (s : Str) : List Str × HasEndcolon :=
  match trailing (cutLine s) with
  | none => (pieces (chr ' ') (cutLine s), .withoutColon)
  | some (before, last) => (pieces (chr ' ') before ++ [last], .withColon)

/-- A line: an origin behind a colon and up to a space, and the arguments behind all spaces. -/
def lineGrammar (d : Str) : Option IrcLine :=
  if d.head? = some (chr ':') then
    if chr ' ' ∈ d.tail then
      let r := argsGrammar ((d.tail.dropWhile (· ≠ chr ' ')).dropWhile (· = chr ' '))
      some ⟨some (d.tail.takeWhile (· ≠ chr ' ')), r.1, r.2⟩
    else none
  else some ⟨none, (argsGrammar d).1, (argsGrammar d).2⟩

/-! ### The grammar is what is parsed -/

section
variable {cur rest s : Str}

theorem trailing_word (hcur : chr ' ' ∉ cur) : trailing cur = none := by
  induction cur with
  | nil => rfl
  | cons b cur ih =>
      rw [List.mem_cons, not_or] at hcur
      rw [trailing, if_neg fun h => hcur.1 h.1.symm, ih hcur.2]
      rfl

/-- The first space is no place to look in front of. -/
theorem trailing_space (hcur : chr ' ' ∉ cur) : trailing (cur ++ chr ' ' :: s) =
    if s.head? = some (chr ':') then some (cur, s.tail)
    else (trailing s).map fun (before, last) => (cur ++ chr ' ' :: before, last) := by
  induction cur with
  | nil => simp [trailing]
  | cons b cur ih =>
      rw [List.mem_cons, not_or] at hcur
      rw [List.cons_append, trailing, if_neg fun h => hcur.1 h.1.symm, ih hcur.2]
      split_ifs <;> simp [Function.comp_def]

theorem cutLine_append (hcur : NoEol cur) : cutLine (cur ++ rest) = cur ++ cutLine rest := by
  rw [cutLine, List.takeWhile_append_of_pos]
  · rfl
  · intro b hb
    exact decide_eq_true (hcur b hb)

theorem cutLine_cons {b : Byte} (hb : b ≠ chr '\r' ∧ b ≠ chr '\n') :
    cutLine (b :: rest) = b :: cutLine rest := by
  rw [cutLine, List.takeWhile_cons, if_pos (decide_eq_true hb)]
  rfl

theorem cutLine_eol {b : Byte} (hb : b = chr '\r' ∨ b = chr '\n') : cutLine (b :: rest) = [] := by
  rw [cutLine, List.takeWhile_cons, if_neg]
  simp only [ne_eq, decide_eq_true_eq]
  tauto

theorem cutLine_head {b : Byte} (h : (cutLine rest).head? = some b) : rest.head? = some b := by
  cases rest with
  | nil => cases h
  | cons c rest =>
      rw [cutLine, List.takeWhile_cons] at h
      split at h
      · exact h
      · cases h

/-- Behind a colon nothing splits. -/
theorem parseArgs_false : parseArgs false cur rest = ([cur ++ cutLine rest], .withoutColon) := by
  induction rest generalizing cur with
  | nil => rw [parseArgs_nil, cutLine, List.takeWhile_nil, List.append_nil]
  | cons b rest ih =>
      by_cases hb : b = chr '\r' ∨ b = chr '\n'
      · rw [parseArgs_eol _ _ _ hb, cutLine_eol hb, List.append_nil]
      · rw [not_or] at hb
        rw [parseArgs_char false _ _ (fun h => nomatch h) hb, ih, cutLine_cons hb, List.append_assoc]
        rfl

theorem parseArgs_grammar (hcur : Word cur) : parseArgs true cur rest = argsGrammar (cur ++ rest) := by
  have hspace : ∀ {cur : Str}, Word cur → chr ' ' ∉ cur := fun h hmem => (h _ hmem).1 rfl
  induction rest generalizing cur with
  | nil =>
      rw [parseArgs_nil, argsGrammar, cutLine_append hcur.noEol]
      simp [cutLine, trailing_word (hspace hcur), pieces_single (hspace hcur)]
  | cons b rest ih =>
      by_cases hb : b = chr '\r' ∨ b = chr '\n'
      · rw [parseArgs_eol _ _ _ hb, argsGrammar, cutLine_append hcur.noEol, cutLine_eol hb]
        simp [trailing_word (hspace hcur), pieces_single (hspace hcur)]
      rw [not_or] at hb
      by_cases hsp : b = chr ' '
      · subst hsp
        have hnext := ih word_nil
        rw [List.nil_append] at hnext
        rw [argsGrammar, cutLine_append hcur.noEol, cutLine_cons hb, trailing_space (hspace hcur)]
        by_cases hcolon : rest.head? = some (chr ':')
        · obtain ⟨rest, rfl⟩ : ∃ r, rest = chr ':' :: r := by
            cases rest with
            | nil => cases hcolon
            | cons c r => exact ⟨r, by rw [Option.some_inj.mp hcolon]⟩
          rw [parseArgs_space_colon, parseArgs_false, cutLine_cons (by decide)]
          simp [pieces_single (hspace hcur)]
        · rw [parseArgs_space _ _ hcolon, hnext, argsGrammar, if_neg]
          · cases trailing (cutLine rest) with
            | none => simp [pieces_append (hspace hcur)]
            | some r => simp [pieces_append (hspace hcur)]
          · exact fun h => hcolon (cutLine_head h)
      · rw [parseArgs_char _ _ _ (fun _ => hsp) hb, ih (hcur.snoc ⟨hsp, hb⟩), List.append_assoc]
        rfl

/-- A line has no colon in front, or a colon without a space behind it, or both. -/
theorem line_cases (d : Str) : d.head? ≠ some (chr ':') ∨
    (∃ o, chr ' ' ∉ o ∧ d = chr ':' :: o) ∨
    ∃ o t, chr ' ' ∉ o ∧ d = chr ':' :: (o ++ chr ' ' :: t) := by
  cases d with
  | nil => exact .inl nofun
  | cons b d =>
      by_cases hb : b = chr ':'
      · subst hb
        by_cases hsp : chr ' ' ∈ d
        · obtain ⟨o, t, hd, ho⟩ := List.eq_append_cons_of_mem hsp
          exact .inr (.inr ⟨o, t, ho, by rw [hd]⟩)
        · exact .inr (.inl ⟨d, hsp, rfl⟩)
      · exact .inl fun h => hb (Option.some_inj.mp h)

theorem origin_split {o t : Str} (ho : chr ' ' ∉ o) :
    (o ++ chr ' ' :: t).takeWhile (· ≠ chr ' ') = o ∧
      (o ++ chr ' ' :: t).dropWhile (· ≠ chr ' ') = chr ' ' :: t := by
  have hw : ∀ b ∈ o, decide (b ≠ chr ' ') = true := fun b hb =>
    decide_eq_true fun e => ho (e ▸ hb)
  rw [List.takeWhile_append_of_pos hw, List.dropWhile_append_of_pos hw]
  simp

/-- The parser reads the grammar. -/
theorem ircParseLine_grammar (d : Str) : ircParseLine d = lineGrammar d := by
  have hargs : ∀ s, parseArgs true [] s = argsGrammar s := fun s => parseArgs_grammar word_nil
  rcases line_cases d with hd | ⟨o, ho, rfl⟩ | ⟨o, t, ho, rfl⟩
  · rw [ircParseLine_args hd, lineGrammar, if_neg hd, hargs]
  · have hdrop : o.dropWhile (· ≠ chr ' ') = [] := dropWhile_ne_eq_nil.mpr ho
    simp only [ircParseLine, if_true, hdrop, lineGrammar, List.head?_cons, List.tail_cons, ho, if_false]
  · obtain ⟨htake, hdrop⟩ := origin_split (t := t) ho
    simp only [ircParseLine, if_true, hdrop, htake, lineGrammar, List.head?_cons, List.tail_cons, hargs,
      List.mem_append, List.mem_cons, true_or, or_true]

end

/-! ### The loop -/

/-- The loop has made the arguments `as`, and has read `cur` of the next one; behind it is `rest`.  The
cells of `pre` are not written to any more. -/
structure Scanned (s : Scan) (pre : Cells Byte) (offs : List ℕ) (as : List Str) (cur rest : Str) :
    Prop where
  data : s.data = pre ++ ((cur ++ rest).map some ++ [none])
  pos : s.p = pre.length + cur.length
  argc : s.argc = offs.length
  args : ∃ room, s.args = (offs ++ [pre.length]).map some ++ room ∧ rest.count (chr ' ') < room.length
  words : List.Forall₂ (fun off a => pre.textAt off = .ok a) offs as

/-- The loop has ended, and has made the arguments `as`; there is room for one more pointer. -/
structure Ended (s : Scan) (offs : List ℕ) (as : List Str) : Prop where
  argc : s.argc + 1 = offs.length
  args : ∃ v room, s.args = offs.map some ++ v :: room
  words : List.Forall₂ (fun off a => s.data.textAt off = .ok a) offs as

section
variable {s : Scan} {pre : Cells Byte} {offs : List ℕ} {as : List Str} {cur rest : Str}

/-- The loop ends where there is a terminator behind the argument that is read. -/
theorem Scanned.ended (h : Scanned s pre offs as cur rest) {post : Cells Byte}
    {data : Cells Byte} (hdata : data = pre ++ (cur.map some ++ none :: post)) :
    Ended { s with data := data } (offs ++ [pre.length]) (as ++ [cur]) where
  argc := by rw [h.argc, List.length_append, List.length_singleton]
  args := by
    obtain ⟨room, hroom, hlen⟩ := h.args
    cases room with
    | nil => exact absurd hlen (Nat.not_lt_zero _)
    | cons v room => exact ⟨v, room, hroom⟩
  words := by
    subst hdata
    exact forall₂_snoc (h.words.imp fun off a ha => Cells.textAt_append ha _)
      (Cells.textAt_eq pre cur post)

/-- The character that is read, and what is in the cells in front of it and behind. -/
theorem Scanned.at (h : Scanned s pre offs as cur rest) :
    s.data = pre ++ cur.map some ++ (rest.map some ++ [none]) ∧ s.p = (pre ++ cur.map some).length := by
  refine ⟨?_, ?_⟩
  · rw [h.data, List.map_append, List.append_assoc, List.append_assoc]
  · rw [h.pos, List.length_append, List.length_map]

theorem Scanned.load (h : Scanned s pre offs as cur rest) : s.data.load s.p = .ok rest.head? := by
  rw [h.at.1, h.at.2]
  cases rest with
  | nil => exact Cells.load_append _ _ _
  | cons b rest => exact Cells.load_append _ _ _

/-- A character of the argument that is read. -/
theorem Scanned.char {b : Byte} (h : Scanned s pre offs as cur (b :: rest)) :
    Scanned { s with p := s.p + 1 } pre offs as (cur ++ [b]) rest where
  data := by
    rw [List.append_assoc]
    exact h.data
  pos := by
    rw [List.length_append, ← Nat.add_assoc, ← h.pos]
    rfl
  argc := h.argc
  args := by
    obtain ⟨room, hroom, hlen⟩ := h.args
    exact ⟨room, hroom, List.count_le_count_cons.trans_lt hlen⟩
  words := h.words

/-- The next argument, behind a space and the characters `w`. -/
theorem Scanned.next (w rest : Str) (h : Scanned s pre offs as cur (chr ' ' :: (w ++ rest))) :
    ∃ args, s.args.store (s.argc + 1) (some (s.p + 1 + w.length)) = .ok args ∧
      ∀ (split : Bool) (c : HasEndcolon), Scanned
        ⟨pre ++ cur.map some ++ none :: ((w ++ rest).map some ++ [none]), args, s.argc + 1,
          s.p + 1 + w.length, split, c⟩
        (pre ++ cur.map some ++ none :: w.map some) (offs ++ [pre.length]) (as ++ [cur]) [] rest := by
  obtain ⟨room, hroom, hlen⟩ := h.args
  rw [List.count_cons_self, List.count_append] at hlen
  cases room with
  | nil => exact absurd hlen (Nat.not_lt_zero _)
  | cons v room =>
      have hpos : s.p + 1 + w.length = (pre ++ cur.map some ++ none :: w.map some).length := by
        rw [h.at.2, @List.length_append _ _ (none :: _), List.length_cons, List.length_map]
        omega
      have hstore := Cells.store_append ((offs ++ [pre.length]).map some) v
        (some (s.p + 1 + w.length)) room
      rw [← hroom, List.length_map, List.length_append, List.length_singleton, ← h.argc] at hstore
      refine ⟨_, hstore, fun split c => ⟨?_, hpos, ?_, ⟨room, ?_, ?_⟩, ?_⟩⟩
      · simp
      · rw [List.length_append, List.length_singleton, ← h.argc]
      · rw [hpos]
        simp
      · exact (Nat.le_add_left _ _).trans_lt (Nat.lt_of_succ_lt_succ hlen)
      · refine forall₂_snoc (h.words.imp fun off a ha => ?_) ?_
        · rw [List.append_assoc]
          exact Cells.textAt_append ha _
        · rw [List.append_assoc]
          exact Cells.textAt_eq pre cur _

/-- A terminator was written over a space. -/
theorem Scanned.load_space (h : Scanned s pre offs as cur (chr ' ' :: rest)) (post : Cells Byte) :
    Cells.load (pre ++ cur.map some ++ none :: post) s.p = .ok none := by
  rw [h.at.2]
  exact Cells.load_append _ _ _

/-- The cell behind it is as it was. -/
theorem Scanned.load_behind (h : Scanned s pre offs as cur (chr ' ' :: rest)) :
    Cells.load (pre ++ cur.map some ++ none :: (rest.map some ++ [none])) (s.p + 1) =
      .ok rest.head? := by
  have hnext : s.p + 1 = (pre ++ cur.map some ++ [none]).length := by
    rw [h.at.2, @List.length_append _ _ [none]]
    rfl
  rw [List.append_cons (pre ++ cur.map some) none, hnext]
  cases rest <;> exact Cells.load_append _ _ _

/-- What the loop does at a space: it ends the argument, and looks at the next character. -/
theorem Scanned.split_space (h : Scanned s pre offs as cur (chr ' ' :: rest)) (hs : s.dosplit = true) :
    s.split (chr ' ') = (do
      let args ← s.args.store (s.argc + 1) (some (s.p + 1))
      if rest.head? = some (chr ':') then do
        let args ← args.store (s.argc + 1) (some (s.p + 1 + 1))
        pure ⟨pre ++ cur.map some ++ none :: (rest.map some ++ [none]), args, s.argc + 1, s.p, false,
          .withColon⟩
      else pure ⟨pre ++ cur.map some ++ none :: (rest.map some ++ [none]), args, s.argc + 1, s.p, true,
        s.hasEndcolon⟩) := by
  have hstore : s.data.store s.p none =
      .ok (pre ++ cur.map some ++ none :: (rest.map some ++ [none])) := by
    rw [h.at.1, h.at.2]
    exact Cells.store_append _ _ _ _
  rw [Scan.split, if_pos ⟨rfl, hs⟩, hstore, ok_bind]
  refine congrArg _ (funext fun args => ?_)
  rw [h.load_behind, ok_bind, hs]

/-- A space ends an argument, and the next one begins behind it. -/
theorem Scanned.split_plain (h : Scanned s pre offs as cur (chr ' ' :: rest)) (hs : s.dosplit = true)
    (hc : rest.head? ≠ some (chr ':')) :
    ∃ s₁, s.split (chr ' ') = .ok s₁ ∧ s₁.data.load s₁.p = .ok none ∧ s₁.dosplit = true ∧
      s₁.hasEndcolon = s.hasEndcolon ∧ Scanned { s₁ with p := s₁.p + 1 }
        (pre ++ cur.map some ++ [none]) (offs ++ [pre.length]) (as ++ [cur]) [] rest := by
  obtain ⟨args, hargs, hnext⟩ := h.next [] rest
  have hsplit := h.split_space hs
  rw [show s.args.store (s.argc + 1) (some (s.p + 1)) = .ok args from hargs, ok_bind, if_neg hc] at hsplit
  exact ⟨_, hsplit, h.load_space _, rfl, rfl, hnext true s.hasEndcolon⟩

/-- A space with a colon behind it ends an argument, and the last one begins behind the colon. -/
theorem Scanned.split_colon (h : Scanned s pre offs as cur (chr ' ' :: chr ':' :: rest))
    (hs : s.dosplit = true) :
    ∃ s₁, s.split (chr ' ') = .ok s₁ ∧ s₁.data.load s₁.p = .ok none ∧ s₁.dosplit = false ∧
      s₁.hasEndcolon = .withColon ∧ s₁.data.load (s₁.p + 1) = .ok (some (chr ':')) ∧
      Scanned { s₁ with p := s₁.p + 1 + 1 } (pre ++ cur.map some ++ [none, some (chr ':')])
        (offs ++ [pre.length]) (as ++ [cur]) [] rest := by
  obtain ⟨args, hargs, -⟩ := h.next [] (chr ':' :: rest)
  obtain ⟨args', hargs', hnext⟩ := h.next [chr ':'] rest
  have hagain : args.store (s.argc + 1) (some (s.p + 1 + 1)) = .ok args' :=
    (Cells.store_again hargs _).trans hargs'
  have hsplit := h.split_space hs
  rw [show s.args.store (s.argc + 1) (some (s.p + 1)) = .ok args from hargs, ok_bind, List.head?_cons,
    if_pos rfl, hagain, ok_bind] at hsplit
  exact ⟨_, hsplit, h.load_space _, rfl, rfl, h.load_behind, hnext false .withColon⟩

/-! ### Rounds -/

variable {s₁ : Scan} {b : Byte} {v : Option Byte} {n : ℕ}

theorem Scan.loop_end (hload : s.data.load s.p = .ok none) : s.loop (n + 1) = .ok s := by
  rw [Scan.loop, hload]
  rfl

theorem Scan.loop_next (hload : s.data.load s.p = .ok (some b)) (hsplit : s.split b = .ok s₁)
    (hv : s₁.data.load s₁.p = .ok v) (hne : ¬(v = some (chr '\r') ∨ v = some (chr '\n'))) :
    s.loop (n + 1) = Scan.loop n { s₁ with p := s₁.p + 1 } := by
  rw [Scan.loop, hload]
  simp only [ok_bind, hsplit, hv, if_neg hne]

theorem Scan.loop_cut {data : Cells Byte} (hload : s.data.load s.p = .ok (some b))
    (hsplit : s.split b = .ok s) (hb : b = chr '\r' ∨ b = chr '\n')
    (hdata : s.data.store s.p none = .ok data) : s.loop (n + 1) = .ok { s with data := data } := by
  have hv : some b = some (chr '\r') ∨ some b = some (chr '\n') := by
    simpa only [Option.some_inj] using hb
  rw [Scan.loop, hload]
  simp only [ok_bind, hsplit, hload, if_pos hv, hdata, pure_eq_ok]

/-- At the end of the text the loop has made its last argument. -/
theorem Scanned.loop_nil (h : Scanned s pre offs as cur []) :
    s.loop (n + 1) = .ok s ∧ Ended s (offs ++ [pre.length]) (as ++ [cur]) :=
  ⟨Scan.loop_end h.load, h.ended (h.data.trans (by rw [List.append_nil]))⟩

/-- The loop makes the arguments. -/
theorem Scanned.loop {dosplit : Bool} (h : Scanned s pre offs as cur rest)
    (hs : s.dosplit = dosplit) (hn : rest.length < n) :
    ∃ s' offs', s.loop n = .ok s' ∧ Ended s' offs' (as ++ (parseArgs dosplit cur rest).1) ∧
      s'.hasEndcolon = if dosplit ∧ (parseArgs dosplit cur rest).2 = .withColon then .withColon
        else s.hasEndcolon := by
  induction dosplit, cur, rest using parseArgs.induct generalizing s pre offs as n with
  | case1 split cur =>
      obtain ⟨n, rfl⟩ : ∃ k, n = k + 1 := ⟨n - 1, by simp at hn; omega⟩
      obtain ⟨hloop, hended⟩ := h.loop_nil
      rw [parseArgs_nil]
      exact ⟨s, _, hloop, hended, by simp⟩
  | case2 split cur b hb p' ih =>
      obtain ⟨rfl, rfl⟩ := hb
      obtain ⟨n, rfl⟩ : ∃ k, n = k + 1 + 1 := ⟨n - 2, by simp at hn; omega⟩
      obtain ⟨s₁, hsplit, hnul, hs₁, hcol₁, hcolon, hnext⟩ := h.split_colon hs
      obtain ⟨s', offs', hloop, hended, hcol⟩ :=
        ih hnext hs₁ (Nat.lt_of_succ_lt_succ (Nat.lt_of_succ_lt_succ hn))
      -- the colon is a round of its own, which does nothing
      have hskip : Scan.split { s₁ with p := s₁.p + 1 } (chr ':') = .ok { s₁ with p := s₁.p + 1 } := by
        rw [Scan.split, if_neg fun e => absurd e.1 (by decide)]
        rfl
      rw [parseArgs_space_colon]
      refine ⟨s', offs', ?_, ?_, ?_⟩
      · rw [Scan.loop_next h.load hsplit hnul (by simp),
          Scan.loop_next (s := { s₁ with p := s₁.p + 1 }) hcolon hskip hcolon (by decide), hloop]
      · rwa [List.append_cons]
      · rw [if_pos ⟨rfl, rfl⟩, hcol, if_neg fun e => Bool.false_ne_true e.1, hcol₁]
  | case3 split cur b hb c p' hc ih =>
      obtain ⟨rfl, rfl⟩ := hb
      obtain ⟨n, rfl⟩ : ∃ k, n = k + 1 := ⟨n - 1, by simp at hn; omega⟩
      have hhead : (c :: p').head? ≠ some (chr ':') := fun e => hc (Option.some_inj.mp e)
      obtain ⟨s₁, hsplit, hnul, hs₁, hcol₁, hnext⟩ := h.split_plain hs hhead
      obtain ⟨s', offs', hloop, hended, hcol⟩ := ih hnext hs₁ (Nat.lt_of_succ_lt_succ hn)
      rw [parseArgs_space _ _ hhead]
      refine ⟨s', offs', ?_, ?_, hcol.trans (by rw [hcol₁])⟩
      · rw [Scan.loop_next h.load hsplit hnul (by simp), hloop]
      · rwa [List.append_cons]
  | case4 split cur b hb =>
      obtain ⟨rfl, rfl⟩ := hb
      obtain ⟨n, rfl⟩ : ∃ k, n = k + 1 + 1 := ⟨n - 2, by simp at hn; omega⟩
      have hhead : ([] : Str).head? ≠ some (chr ':') := by simp
      obtain ⟨s₁, hsplit, hnul, hs₁, hcol₁, hnext⟩ := h.split_plain hs hhead
      obtain ⟨hloop, hended⟩ := hnext.loop_nil (n := n)
      rw [List.append_assoc as] at hended
      rw [parseArgs_space _ _ hhead, parseArgs_nil]
      exact ⟨_, _, (Scan.loop_next h.load hsplit hnul (by simp)).trans hloop, hended, by simpa using hcol₁⟩
  | case5 split cur b p hb he =>
      obtain ⟨n, rfl⟩ : ∃ k, n = k + 1 := ⟨n - 1, by simp at hn; omega⟩
      have hsplit : s.split b = .ok s := by
        rw [Scan.split, if_neg (hs ▸ hb)]
        rfl
      have hstore : s.data.store s.p none = .ok (pre ++ cur.map some ++ none :: (p.map some ++ [none])) := by
        rw [h.at.1, h.at.2]
        exact Cells.store_append _ _ _ _
      rw [parseArgs_eol _ _ _ he]
      exact ⟨_, _, Scan.loop_cut h.load hsplit he hstore, h.ended (List.append_assoc _ _ _), by simp⟩
  | case6 split cur b p hb he ih =>
      obtain ⟨n, rfl⟩ : ∃ k, n = k + 1 := ⟨n - 1, by simp at hn; omega⟩
      have hsplit : s.split b = .ok s := by
        rw [Scan.split, if_neg (hs ▸ hb)]
        rfl
      obtain ⟨s', offs', hloop, hended, hcolon⟩ := ih h.char hs (Nat.lt_of_succ_lt_succ hn)
      rw [parseArgs_char _ _ _ (fun e e' => hb ⟨e', e⟩) (not_or.mp he)]
      refine ⟨s', offs', ?_, hended, hcolon⟩
      rwa [Scan.loop_next h.load hsplit h.load (by simpa using he)]

end

/-! ### The whole program -/

section
variable (fresh : ℕ → Option ℕ)

theorem mapM_textAt {data : Cells Byte} {offs : List ℕ} {as : List Str}
    (h : List.Forall₂ (fun off a => data.textAt off = .ok a) offs as) :
    offs.mapM data.textAt = .ok as := by
  induction h with
  | nil => rfl
  | cons ha _ ih => simp only [List.mapM_cons, ha, ih, ok_bind, pure_eq_ok]

/-- The loop, its vector and the copies of the arguments, behind the cells of an origin. -/
theorem splitInPlace_eq (origin : Option Str) (pre : Cells Byte) (rest : Str) :
    splitInPlace fresh origin (pre ++ (rest.map some ++ [none])) pre.length =
      .ok ((parseArgs true [] rest).1.length,
        ⟨origin, (parseArgs true [] rest).1, (parseArgs true [] rest).2⟩) := by
  obtain ⟨v, room, hargs⟩ : ∃ v room, (List.range (rest.count (chr ' ') + 2)).map fresh = v :: room :=
    List.exists_cons_of_length_pos (by simp)
  have hroom : room.length = rest.count (chr ' ') + 1 := by
    have := congrArg List.length hargs
    simpa using this.symm
  have hstart : Scanned ⟨pre ++ (rest.map some ++ [none]), some pre.length :: room, 0, pre.length, true,
      .withoutColon⟩ pre [] [] [] rest :=
    ⟨rfl, rfl, rfl, ⟨room, rfl, hroom ▸ Nat.lt_succ_self _⟩, .nil⟩
  obtain ⟨s, offs, hloop, hended, hcolon⟩ := hstart.loop rfl
    (n := (pre ++ (rest.map some ++ [none])).length) (by simp; omega)
  obtain ⟨w, room', hargs'⟩ := hended.args
  have hstore := Cells.store_append (offs.map some) w none room'
  rw [← hargs', List.length_map, ← hended.argc] at hstore
  have htext : Cells.text (offs.map some ++ none :: room') = .ok offs := Cells.Holds.text_eq ⟨room', rfl⟩
  have hargc : s.argc + 1 = (parseArgs true [] rest).1.length :=
    hended.argc.trans hended.words.length_eq
  have hflag : s.hasEndcolon = (parseArgs true [] rest).2 := by
    rw [hcolon, parseArgs_grammar word_nil, argsGrammar]
    split <;> rfl
  have hfirst : Cells.store (v :: room) 0 (some pre.length) = .ok (some pre.length :: room) :=
    Cells.store_append [] v (some pre.length) room
  simp only [splitInPlace, Cells.textAt_eq pre rest [], ok_bind, hargs, hfirst, hloop, hstore, htext,
    mapM_textAt hended.words, pure_eq_ok]
  rw [hargc, hflag]
  rfl

/-- The search for the space behind an origin passes the origin. -/
theorem origin_passed {o : Str} (ho : chr ' ' ∉ o) : ∀ u ∈ (chr ':' :: o).map some,
    (fun v => decide (v = none ∨ v = some (chr ' '))) u = false := by
  intro u hu
  obtain ⟨b, hb, rfl⟩ := List.mem_map.mp hu
  have hne : b ≠ chr ' ' := by
    rcases List.mem_cons.mp hb with rfl | hb
    · decide
    · exact fun e => ho (e ▸ hb)
  simpa using hne

/-- A line that is an origin alone is none. -/
theorem ircParseLineInPlace_none {o : Str} (ho : chr ' ' ∉ o) :
    ircParseLineInPlace fresh (chr ':' :: o) = .ok none := by
  have hseek := Cells.seek_append [] ((chr ':' :: o).map some) (v := none) [] (origin_passed ho) rfl
  have hload := Cells.load_append ((chr ':' :: o).map some) none []
  rw [List.nil_append, List.length_nil, Nat.zero_add] at hseek
  have hfirst : Cells.load ((chr ':' :: o).map some ++ [none]) 0 = .ok (some (chr ':')) := rfl
  simp only [ircParseLineInPlace, hfirst, ok_bind, if_true, hseek, hload, pure_eq_ok]

/-- Behind an origin, a space and more spaces the arguments are made. -/
theorem ircParseLineInPlace_origin {o t : Str} (ho : chr ' ' ∉ o) :
    ∃ pre, ircParseLineInPlace fresh (chr ':' :: (o ++ chr ' ' :: t)) =
      (splitInPlace fresh (some o) (pre ++ ((t.dropWhile (· = chr ' ')).map some ++ [none]))
        pre.length).map some := by
  let cells : Cells Byte := (chr ':' :: o).map some
  let rest := t.dropWhile (· = chr ' ')
  have hdata : (chr ':' :: (o ++ chr ' ' :: t)).map some ++ [none] =
      cells ++ some (chr ' ') :: (t.map some ++ [none]) := by simp [cells]
  have hfirst : Cells.load (cells ++ some (chr ' ') :: (t.map some ++ [none])) 0 =
      .ok (some (chr ':')) := rfl
  have hseek := Cells.seek_append [] cells (v := some (chr ' ')) (t.map some ++ [none])
    (origin_passed ho) (by simp)
  rw [List.nil_append, List.length_nil, Nat.zero_add] at hseek
  have hload := Cells.load_append cells (some (chr ' ')) (t.map some ++ [none])
  have hstore := Cells.store_append cells (some (chr ' ')) none (t.map some ++ [none])
  have horigin : Cells.textAt (cells ++ none :: (t.map some ++ [none])) 1 = .ok o :=
    Cells.textAt_eq [some (chr ':')] o (t.map some ++ [none])
  have hsplit : cells ++ none :: (t.map some ++ [none]) =
      cells ++ [none] ++ ((t.takeWhile (· = chr ' ')).map some ++ (rest.map some ++ [none])) := by
    rw [List.append_cons cells none, ← List.append_assoc (List.map some _), ← List.map_append,
      List.takeWhile_append_dropWhile]
  have hskip : Cells.seek (cells ++ none :: (t.map some ++ [none]))
      (fun v => v ≠ some (chr ' ')) (cells.length + 1) =
      .ok (cells.length + 1 + (t.takeWhile (· = chr ' ')).length) := by
    have hmid : ∀ u ∈ (t.takeWhile (· = chr ' ')).map some,
        (fun v : Option Byte => decide (v ≠ some (chr ' '))) u = false := by
      intro u hu
      obtain ⟨b, hb, rfl⟩ := List.mem_map.mp hu
      simpa using List.mem_takeWhile_imp hb
    obtain ⟨v, post, hpost, hv⟩ : ∃ v post, rest.map some ++ [none] = v :: post ∧ v ≠ some (chr ' ') := by
      cases hrest : rest with
      | nil => exact ⟨none, [], rfl, nofun⟩
      | cons b r =>
          refine ⟨some b, r.map some ++ [none], rfl, fun e => ?_⟩
          have hb := List.head?_dropWhile_not (fun b => decide (b = chr ' ')) t
          rw [show t.dropWhile (fun b => decide (b = chr ' ')) = b :: r from hrest] at hb
          simp [Option.some_inj.mp e] at hb
    have hrun := Cells.seek_append (cells ++ [none]) _ post hmid (decide_eq_true hv)
    rw [← hpost, ← hsplit, List.length_append, List.length_singleton, 
      @List.length_map _ _ (t.takeWhile _)] at hrun
    exact hrun
  refine ⟨cells ++ [none] ++ (t.takeWhile (· = chr ' ')).map some, ?_⟩
  rw [ircParseLineInPlace]
  simp only [hdata, hfirst, ok_bind, if_true, hseek, hload, hstore, horigin, hskip]
  rw [hsplit, ← List.append_assoc, List.length_append, List.length_append, List.length_singleton,
    @List.length_map _ _ (t.takeWhile _)]

/-- **The parser stays in its buffers, and reads the grammar.**  Whatever the vector has in it before, no
access leaves the copy of the line or the vector of `estimate + 2` pointers; the result is what the
grammar makes of the line, which has at least one argument, and `argc` counts the arguments. -/
theorem ircParseLineInPlace_eq (d : Str) :
    ircParseLineInPlace fresh d = .ok ((lineGrammar d).map fun l => (l.args.length, l)) ∧
      (∀ l ∈ lineGrammar d, l.args ≠ []) ∧ ircParseLine d = lineGrammar d := by
  refine ⟨?_, ?_, ircParseLine_grammar d⟩
  · rw [← ircParseLine_grammar]
    rcases line_cases d with hd | ⟨o, ho, rfl⟩ | ⟨o, t, ho, rfl⟩
    · have hload : Cells.load (d.map some ++ [none]) 0 = .ok d.head? := by cases d <;> rfl
      rw [ircParseLine_args hd, ircParseLineInPlace]
      simp only [hload, ok_bind, if_neg hd]
      rw [show splitInPlace fresh none (d.map some ++ [none]) 0 = _ from splitInPlace_eq fresh none [] d]
      rfl
    · have hdrop : o.dropWhile (· ≠ chr ' ') = [] := dropWhile_ne_eq_nil.mpr ho
      rw [ircParseLineInPlace_none fresh ho]
      simp only [ircParseLine, if_true, hdrop, Option.map_none]
    · obtain ⟨htake, hdrop⟩ := origin_split (t := t) ho
      obtain ⟨pre, hrun⟩ := ircParseLineInPlace_origin fresh (t := t) ho
      rw [hrun, splitInPlace_eq]
      simp only [ircParseLine, if_true, htake, hdrop, List.dropWhile_cons, decide_true]
      rfl
  · intro l hl
    obtain ⟨a, as, h, -⟩ := (ircParseLine_printable ((ircParseLine_grammar d).trans hl)).args
    rw [h]
    exact List.cons_ne_nil _ _

end

end Ctrlproxy
