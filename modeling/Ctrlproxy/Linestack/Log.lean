import Ctrlproxy.Base.Print
import Ctrlproxy.Linestack.Store

/-!
# Linestack — the store is a log

What the store is for is a list: the lines that were accepted, in the order they came
(`Session.accepted`).  `Holds` relates the two files and the snapshots to such a list; inserting a
line appends to it, and reading moves the files and leaves them where they were.
-/

namespace Ctrlproxy
open Outcome

/-- `g_io_channel_read_line` on a file of lines that end in CR and LF. -/
def ReadsCrLf (read : LineReader) : Prop :=
  ∀ x rest, NoEol x → read (x ++ str "\r\n" ++ rest) = (x, str "\r\n")

/-! ### Which lines are accepted -/

/-- Text for somebody to read. -/
def IsMessage (l : IrcLine) : Prop :=
  baseEq l.args[0]? (str "PRIVMSG") ∨ baseEq l.args[0]? (str "NOTICE")

/-- A CTCP request or reply that is no `ACTION`. -/
def IsCtcp (l : IrcLine) : Prop :=
  IsMessage l ∧ ∃ a ∈ l.args[2]?, a.head? = some ⟨1, byte_one⟩ ∧
    baseEqN a (⟨1, byte_one⟩ :: str "ACTION") 7 = false

/-- The lines that the log is to keep. -/
def Accepted (l : IrcLine) (dir : DataDirection) : Prop :=
  l.args ≠ [] ∧ (dir = .toServer → IsMessage l) ∧ ¬IsCtcp l ∧
    ∃ m ∈ linestackMessages, baseEq l.args[0]? m = true

instance (l : IrcLine) : Decidable (IsMessage l) := inferInstanceAs (Decidable (_ ∨ _))

instance (l : IrcLine) : Decidable (IsCtcp l) := inferInstanceAs (Decidable (_ ∧ _))

instance (l : IrcLine) (dir : DataDirection) : Decidable (Accepted l dir) :=
  inferInstanceAs (Decidable (_ ∧ _))

/-! ### Entries -/

/-- A line in the log: where it starts, the time it came, and the lines before the snapshot it
goes with. -/
structure Entry where
  offset : ℕ
  line : IrcLine
  time : Long
  state : ℕ

def Entry.text (e : Entry) : Str := ircLineStringNl e.line

/-- Its record in the index. -/
def Entry.record (e : Entry) : List Octet :=
  toOctets 8 e.offset ++ (timeOctets e.time ++ toOctets 8 e.state)

@[simp] theorem Entry.length_record (e : Entry) : e.record.length = INDEX_RECORD_SIZE := by
  simp [Entry.record, timeOctets, INDEX_RECORD_SIZE]

/-- The store holds the entries of a log. -/
structure Holds (nd : LinestackContext) (log : List Entry) : Prop where
  lines : nd.lineFile.data = log.flatMap Entry.text
  lines_end : nd.lineFile.AtEnd
  lines_size : nd.lineFile.data.length < 2 ^ 63
  index : nd.indexFile.data = log.flatMap Entry.record
  index_end : nd.indexFile.AtEnd
  count : nd.count = log.length
  count_size : nd.count < 2 ^ 31
  offset : ∀ i e, log[i]? = some e → e.offset = ((log.take i).flatMap Entry.text).length
  state : ∀ i e, log[i]? = some e → e.state ≤ i ∧ i < e.state + STATE_DUMP_INTERVAL ∧
    nd.states e.state ≠ none
  line : ∀ e ∈ log, e.line.Printable ∧ ∀ o ∈ e.line.origin, NoEol o
  last : nd.states nd.lastLineWithState ≠ none
  last_dvd : STATE_DUMP_INTERVAL ∣ nd.lastLineWithState

theorem Holds.index_length {nd : LinestackContext} {log : List Entry} (h : Holds nd log) :
    nd.indexFile.data.length = log.length * INDEX_RECORD_SIZE := by
  rw [h.index]
  exact length_flatMap_of_length fun e _ => e.length_record

/-! ### Numbers -/

theorem timeOf_timeOctets (t : Long) : timeOf (ofOctets (timeOctets t)) = t := by
  obtain ⟨v, hv⟩ := t
  rw [timeOctets, ofOctets_toOctets]
  have hlt : (v % 2 ^ 64).toNat % 256 ^ 8 = (v % 2 ^ 64).toNat := Nat.mod_eq_of_lt (by omega)
  rw [hlt, timeOf]
  split
  · next h => exact Subtype.ext (by dsimp only; omega)
  · next h =>
    have hneg : v < 0 := by omega
    have hval : (((v % 2 ^ 64).toNat : ℕ) : ℤ) - 2 ^ 64 = v := by omega
    rw [hval, clampLong, dif_neg (by omega), dif_neg (by omega)]

theorem readNumber_append {f : File Octet} {xs ys : List Octet} (hx : xs ≠ [])
    (h : f.rest = xs ++ ys) :
    readNumber f xs.length = .ok (ofOctets xs, { f with pos := f.pos + xs.length }) := by
  rw [readNumber, File.read_append h]
  dsimp only
  rw [if_neg hx, if_neg (Nat.lt_irrefl _)]

theorem ofOctets_toOctets_eight {v : ℕ} (h : v < 2 ^ 64) : ofOctets (toOctets 8 v) = v := by
  rw [ofOctets_toOctets]
  exact Nat.mod_eq_of_lt h

/-! ### Reading -/

/-- The same store, with its files at other positions. -/
structure Moved (nd nd' : LinestackContext) : Prop where
  lines : nd'.lineFile.data = nd.lineFile.data
  index : nd'.indexFile.data = nd.indexFile.data
  states : nd'.states = nd.states
  count : nd'.count = nd.count
  last : nd'.lastLineWithState = nd.lastLineWithState

theorem Moved.refl (nd : LinestackContext) : Moved nd nd := ⟨rfl, rfl, rfl, rfl, rfl⟩

section
variable {read : LineReader} {nd nd' : LinestackContext} {log : List Entry}

/-- Brought back to their ends, the files are where they were. -/
theorem Moved.seekEnd (h : Moved nd nd') (hl : nd.lineFile.AtEnd) (hi : nd.indexFile.AtEnd) :
    { nd' with lineFile := nd'.lineFile.seekEnd, indexFile := nd'.indexFile.seekEnd } = nd := by
  obtain ⟨lines, index, states, count, last⟩ := h
  obtain ⟨f, g, st, c, k⟩ := nd
  obtain ⟨f', g', st', c', k'⟩ := nd'
  dsimp only at lines index states count last hl hi ⊢
  subst states count last
  rw [hl.seekEnd_eq lines, hi.seekEnd_eq index]

/-- What the index file holds from the `i`-th record on. -/
theorem Holds.index_drop (h : Holds nd log) {i : ℕ} {e : Entry} (he : log[i]? = some e) :
    nd.indexFile.data.drop (i * INDEX_RECORD_SIZE) =
      e.record ++ (log.drop (i + 1)).flatMap Entry.record := by
  obtain ⟨hi, rfl⟩ := List.getElem?_eq_some_iff.mp he
  rw [h.index, drop_flatMap_of_length (fun e _ => e.length_record), List.drop_eq_getElem_cons hi,
    List.flatMap_cons]

/-- What the file of lines holds from the start of the `i`-th line on. -/
theorem Holds.lines_drop (h : Holds nd log) {i : ℕ} {e : Entry} (he : log[i]? = some e) :
    nd.lineFile.data.drop e.offset = e.text ++ (log.drop (i + 1)).flatMap Entry.text := by
  rw [h.offset i e he, h.lines, drop_flatMap]
  obtain ⟨hi, rfl⟩ := List.getElem?_eq_some_iff.mp he
  rw [List.drop_eq_getElem_cons hi, List.flatMap_cons]

theorem Holds.offset_lt (h : Holds nd log) {i : ℕ} {e : Entry} (he : log[i]? = some e) :
    e.offset < 2 ^ 64 := by
  have hle : ((log.take i).flatMap Entry.text).length ≤ nd.lineFile.data.length := by
    rw [h.lines]
    conv_rhs => rw [← List.take_append_drop i log, List.flatMap_append, List.length_append]
    exact Nat.le_add_right _ _
  rw [h.offset i e he]
  have := h.lines_size
  omega

theorem str_crlf_ne_nil : str "\r\n" ≠ [] := by decide

/-- The `i`-th entry is read back, wherever the files are. -/
theorem linestackReadEntry_eq (hread : ReadsCrLf read) (h : Holds nd log) (hm : Moved nd nd')
    {i : ℕ} {e : Entry} (he : log[i]? = some e) :
    ∃ nd'', linestackReadEntry read nd' i = .ok (some e.line, e.time, nd'') ∧ Moved nd nd'' := by
  have hrecord : (nd'.indexFile.seek (i * INDEX_RECORD_SIZE)).rest = toOctets 8 e.offset ++
      (timeOctets e.time ++ (toOctets 8 e.state ++ (log.drop (i + 1)).flatMap Entry.record)) := by
    rw [File.rest, File.seek_data, File.seek_pos, hm.index, h.index_drop he]
    simp only [Entry.record, List.append_assoc]
  have hoffset := readNumber_append (by simp [toOctets]) hrecord
  have htime := readNumber_append (by simp [timeOctets, toOctets]) (File.rest_advance hrecord)
  rw [length_toOctets, ofOctets_toOctets_eight (h.offset_lt he)] at hoffset
  rw [show (timeOctets e.time).length = 8 from length_toOctets _ _, length_toOctets] at htime
  obtain ⟨hp, ho⟩ := h.line e (List.mem_of_getElem? he)
  have hrest : (nd'.lineFile.seek e.offset).rest = ircLineString e.line ++ str "\r\n" ++
      (log.drop (i + 1)).flatMap Entry.text := by
    rw [File.rest, File.seek_data, File.seek_pos, hm.lines, h.lines_drop he]
    rfl
  have hne : (nd'.lineFile.seek e.offset).rest ≠ [] := by
    rw [hrest]
    simp [str_crlf_ne_nil]
  have hline := hread (ircLineString e.line) ((log.drop (i + 1)).flatMap Entry.text) (hp.noEol ho)
  have hparse : ircParseLine (ircLineString e.line ++ str "\r\n") = some e.line := by
    have := hp.parse_print []
    rwa [List.append_nil] at this
  refine ⟨{ nd' with
      indexFile := nd'.indexFile.seek (i * INDEX_RECORD_SIZE + 8 + 8)
      lineFile := nd'.lineFile.seek (e.offset + (ircLineString e.line ++ str "\r\n").length) },
    ?_, ⟨hm.lines, hm.index, hm.states, hm.count, hm.last⟩⟩
  unfold linestackReadEntry
  rw [hoffset, ok_bind]
  dsimp only
  rw [htime, ok_bind]
  dsimp only
  rw [if_neg hne, hrest, hline]
  dsimp only
  rw [hparse, timeOf_timeOctets]
  rfl

/-- A handler that never stops the traversal. -/
def AlwaysTrue {H : Type} (handler : TraverseFn H) : Prop := ∀ l t u, (handler l t u).1 = true

/-- What such a handler makes of its data, handed the lines one after the other. -/
def handAll {H : Type} (handler : TraverseFn H) (u : H) (lines : List (IrcLine × Long)) : H :=
  lines.foldl (fun u l => (handler (some l.1) l.2 u).2) u

def Entry.dated (e : Entry) : IrcLine × Long := (e.line, e.time)

/-- A traversal of `k` entries of the log hands them over in order. -/
theorem traverseLoop_all {H : Type} {handler : TraverseFn H} (hall : AlwaysTrue handler)
    (hread : ReadsCrLf read) (h : Holds nd log) {i k : ℕ} (hk : i + k ≤ log.length)
    (hm : Moved nd nd') (u : H) :
    ∃ nd'', traverseLoop read handler k i nd' u =
      .ok (true, nd'', handAll handler u (((log.drop i).take k).map Entry.dated)) ∧
      Moved nd nd'' := by
  induction k generalizing i nd' u with
  | zero => exact ⟨nd', rfl, hm⟩
  | succ k ih =>
      have hi : i < log.length := by omega
      obtain ⟨nd₁, hentry, hm₁⟩ :=
        linestackReadEntry_eq hread h hm (List.getElem?_eq_getElem hi)
      obtain ⟨nd₂, hrest, hm₂⟩ :=
        ih (by omega : i + 1 + k ≤ log.length) hm₁ (handler (some log[i].line) log[i].time u).2
      refine ⟨nd₂, ?_, hm₂⟩
      rw [traverseLoop, hentry, ok_bind]
      dsimp only
      rw [hall, if_pos rfl, hrest, List.drop_eq_getElem_cons hi, List.take_succ_cons, List.map_cons]
      rfl

/-- A traversal of entries of the log comes to its end, whenever the handler stops it. -/
theorem traverseLoop_moved {H : Type} (handler : TraverseFn H) (hread : ReadsCrLf read)
    (h : Holds nd log) {i k : ℕ} (hk : i + k ≤ log.length) (hm : Moved nd nd') (u : H) :
    ∃ ret nd'' u', traverseLoop read handler k i nd' u = .ok (ret, nd'', u') ∧ Moved nd nd'' := by
  induction k generalizing i nd' u with
  | zero => exact ⟨true, nd', u, rfl, hm⟩
  | succ k ih =>
      have hi : i < log.length := by omega
      obtain ⟨nd₁, hentry, hm₁⟩ :=
        linestackReadEntry_eq hread h hm (List.getElem?_eq_getElem hi)
      rw [traverseLoop, hentry, ok_bind]
      dsimp only
      cases (handler (some log[i].line) log[i].time u).1 with
      | true => exact ih (by omega) hm₁ _
      | false => exact ⟨false, nd₁, _, rfl, hm₁⟩

/-- Between two counts of lines, `linestack_traverse` hands over the lines in between, and leaves
the store as it was. -/
theorem linestackTraverse_all {H : Type} {handler : TraverseFn H} (hall : AlwaysTrue handler)
    (hread : ReadsCrLf read) (h : Holds nd log) {a b : ℕ} (hab : a ≤ b) (hb : b ≤ log.length)
    (u : H) : linestackTraverse read nd (some a) (some b) handler u =
      .ok (true, nd, handAll handler u (((log.drop a).take (b - a)).map Entry.dated)) := by
  obtain ⟨nd', hloop, hm⟩ :=
    traverseLoop_all hall hread h (by omega : a + (b - a) ≤ log.length) (.refl nd) u
  unfold linestackTraverse
  dsimp only [Option.getD_some]
  rw [hloop, ok_bind]
  dsimp only
  rw [hm.seekEnd h.lines_end h.index_end]
  rfl

/-- `linestack_traverse` leaves the store as it was. -/
theorem linestackTraverse_same {H : Type} (handler : TraverseFn H) (hread : ReadsCrLf read)
    (h : Holds nd log) {lmFrom lmTo : Option ℕ} (hfrom : ∀ m ∈ lmFrom, m ≤ log.length)
    (hto : ∀ m ∈ lmTo, m ≤ log.length) (u : H) :
    ∃ ret u', linestackTraverse read nd lmFrom lmTo handler u = .ok (ret, nd, u') := by
  have hstart : lmFrom.getD 0 ≤ log.length := by
    cases lmFrom with
    | none => exact Nat.zero_le _
    | some m => exact hfrom m rfl
  have hend : lmTo.getD nd.count ≤ log.length := by
    cases lmTo with
    | none => exact h.count.le
    | some m => exact hto m rfl
  obtain ⟨ret, nd', u', hloop, hm⟩ := traverseLoop_moved handler hread h
    (by omega : lmFrom.getD 0 + (lmTo.getD nd.count - lmFrom.getD 0) ≤ log.length) (.refl nd) u
  refine ⟨ret, u', ?_⟩
  unfold linestackTraverse
  dsimp only
  rw [hloop, ok_bind]
  dsimp only
  rw [hm.seekEnd h.lines_end h.index_end]
  rfl

end

/-! ### Inserting -/

/-- Every write succeeds. -/
def noFailure : WriteSite → Bool := fun _ => false

theorem writeChars_eq {α : Type} {f : File α} {xs : List α} (h : f.pos + xs.length < 2 ^ 63)
    (site : WriteSite) : writeChars noFailure site f xs = some (f.write xs) := by
  rw [writeChars, noFailure, Bool.false_or, if_neg (by simpa using h)]

theorem intAdd_eq {a b : ℕ} (h : a + b < 2 ^ 31) : intAdd a b = .ok (a + b) := if_pos h

section
variable {read : LineReader} {junk : Junk} {nd : LinestackContext} {log : List Entry} {l : IrcLine}
  {dir : DataDirection} {now : Long} {state : NetworkState} {fails : WriteSite → Bool}

/-- A line that the log is not to keep changes nothing. -/
theorem linestackInsertLine_rejected (h : ¬Accepted l dir) :
    linestackInsertLine read junk fails nd l dir now state = .ok (true, nd) := by
  unfold linestackInsertLine
  dsimp only
  split
  · rfl
  next hargs =>
  split
  · rfl
  next hdir =>
  split
  · rfl
  next hctcp =>
  split
  · rfl
  next hmessage =>
  refine absurd ⟨?_, ?_, hctcp, ?_⟩ h
  · exact fun he => hargs (by rw [IrcLine.argc, he]; rfl)
  · intro hd
    by_contra hno
    exact hdir ⟨hd, by simpa [IsMessage] using hno⟩
  · simpa using hmessage

theorem linestackInsertLine_accepted (h : Accepted l dir) (hargs : ∀ a ∈ l.args, NoEol a) :
    linestackInsertLine read junk fails nd l dir now state =
      storeLine read junk fails nd l now state := by
  obtain ⟨hne, hdir, hctcp, hmessage⟩ := h
  unfold linestackInsertLine
  dsimp only
  rw [if_neg, if_neg, if_neg, if_neg, if_neg]
  · rintro ⟨a, ha, hn | hr⟩
    · exact (hargs a ha _ hn).2 rfl
    · exact (hargs a ha _ hr).1 rfl
  · simpa using hmessage
  · exact hctcp
  · rintro ⟨hd, hp, hn⟩
    have := hdir hd
    simp [IsMessage, hp, hn] at this
  · exact fun h0 => hne (List.length_eq_zero_iff.mp h0)

/-- A record is written behind the others. -/
theorem writeIndexEntry_atEnd {f : File Octet} (h : f.AtEnd)
    (hsmall : f.data.length + INDEX_RECORD_SIZE < 2 ^ 63) (offset : ℕ) (time : Long) (state : ℕ) :
    ∃ index, writeIndexEntry noFailure f offset time state = (true, index) ∧
      index.data = f.data ++ (toOctets 8 offset ++ (timeOctets time ++ toOctets 8 state)) ∧
      index.AtEnd := by
  have hpos : f.pos = f.data.length := h
  have htime : (timeOctets time).length = 8 := length_toOctets _ _
  rw [INDEX_RECORD_SIZE] at hsmall
  refine ⟨((f.write (toOctets 8 offset)).write (timeOctets time)).write (toOctets 8 state), ?_, ?_,
    ((h.write _).write _).write _⟩
  · rw [writeIndexEntry, writeChars_eq (by rw [length_toOctets]; omega)]
    dsimp only
    rw [writeChars_eq (by simp only [File.write, length_toOctets, htime]; omega)]
    dsimp only
    rw [writeChars_eq (by simp only [File.write, length_toOctets, htime]; omega)]
  · rw [((h.write _).write _).write_data, (h.write _).write_data, h.write_data, List.append_assoc,
      List.append_assoc]

/-- The record of an entry is written behind the others. -/
theorem writeIndexEntry_eq (h : Holds nd log) (e : Entry) :
    ∃ index, writeIndexEntry noFailure nd.indexFile e.offset e.time e.state = (true, index) ∧
      index.data = (log ++ [e]).flatMap Entry.record ∧ index.AtEnd := by
  have hlength := h.index_length
  have hsmall : log.length < 2 ^ 31 := h.count ▸ h.count_size
  rw [INDEX_RECORD_SIZE] at hlength
  obtain ⟨index, hwrite, hdata, hend⟩ := writeIndexEntry_atEnd h.index_end
    (by rw [hlength, INDEX_RECORD_SIZE]; omega) e.offset e.time e.state
  refine ⟨index, hwrite, ?_, hend⟩
  rw [hdata, h.index]
  simp [Entry.record]

/-- The entry that the next line makes. -/
def LinestackContext.entry (nd : LinestackContext) (l : IrcLine) (now : Long) : Entry :=
  ⟨nd.lineFile.pos, l, now, nd.lastLineWithState⟩

/-- A line that can be read back is appended to the log. -/
theorem writeLine_ensures (h : Holds nd log) (hl : l.Printable)
    (ho : ∀ o ∈ l.origin, NoEol o)
    (hroom : nd.lineFile.data.length + (ircLineStringNl l).length < 2 ^ 63)
    (hle : nd.lastLineWithState ≤ nd.count)
    (hlt : nd.count < nd.lastLineWithState + STATE_DUMP_INTERVAL) :
    Ensures (writeLine noFailure nd l now)
      (fun r => r.1 = true ∧ Holds r.2 (log ++ [nd.entry l now]) ∧ r.2.count = nd.count + 1 ∧
        r.2.lastLineWithState = nd.lastLineWithState)
      (fun _ => 2 ^ 31 ≤ nd.count + 1) := by
  obtain ⟨index, hwrite, hindex, hend⟩ := writeIndexEntry_eq h (nd.entry l now)
  have hpos : nd.lineFile.pos = nd.lineFile.data.length := h.lines_end
  unfold writeLine
  rw [show writeIndexEntry noFailure nd.indexFile nd.lineFile.pos now nd.lastLineWithState =
    (true, index) from hwrite]
  dsimp only
  rw [if_neg Bool.noConfusion, writeChars_eq (by omega)]
  dsimp only
  by_cases hc : nd.count + 1 < 2 ^ 31
  · rw [intAdd_eq hc, ok_bind]
    refine ⟨rfl, ?_, rfl, rfl⟩
    have hlast : ∀ i e, (log ++ [nd.entry l now])[i]? = some e → log[i]? = some e ∨
        i = log.length ∧ e = nd.entry l now := by
      intro i e he
      rcases Nat.lt_trichotomy i log.length with hi | rfl | hi
      · exact .inl (by rwa [List.getElem?_append_left hi] at he)
      · refine .inr ⟨rfl, ?_⟩
        rw [List.getElem?_append_right le_rfl, Nat.sub_self] at he
        exact (Option.some.inj he).symm
      · rw [List.getElem?_eq_none (by simp; omega)] at he
        cases he
    exact
      { lines := by
          show (nd.lineFile.write (ircLineStringNl l)).data = _
          rw [h.lines_end.write_data, h.lines, List.flatMap_append]
          simp [Entry.text, LinestackContext.entry]
        lines_end := h.lines_end.write _
        lines_size := by
          show (nd.lineFile.write (ircLineStringNl l)).data.length < _
          rw [h.lines_end.write_data, List.length_append]
          exact hroom
        index := hindex
        index_end := hend
        count := by
          show nd.count + 1 = _
          rw [h.count, List.length_append]
          rfl
        count_size := hc
        offset := by
          intro i e he
          rcases hlast i e he with he | ⟨rfl, rfl⟩
          · have hi : i ≤ log.length := (List.getElem?_eq_some_iff.mp he).1.le
            rw [List.take_append_of_le_length hi]
            exact h.offset i e he
          · rw [List.take_left, ← h.lines]
            exact hpos
        state := by
          intro i e he
          rcases hlast i e he with he | ⟨rfl, rfl⟩
          · exact h.state i e he
          · rw [h.count] at hle hlt
            exact ⟨hle, hlt, h.last⟩
        line := by
          intro e he
          rcases List.mem_append.mp he with he | he
          · exact h.line e he
          · rw [List.mem_singleton.mp he]
            exact ⟨hl, ho⟩
        last := h.last
        last_dvd := h.last_dvd }
  · rw [intAdd, if_neg hc]
    exact Nat.le_of_not_lt hc

/-- Between two calls the last snapshot is before the last line, and at most an interval ago. -/
structure Rested (nd : LinestackContext) : Prop where
  before : nd.lastLineWithState < nd.count ∨ nd.lastLineWithState = 0
  recent : nd.count ≤ nd.lastLineWithState + STATE_DUMP_INTERVAL

/-- A snapshot of a state that can be written is inserted at a multiple of the interval. -/
theorem fileInsertState_ensures (h : Holds nd log) (hdvd : STATE_DUMP_INTERVAL ∣ nd.count) :
    Ensures (fileInsertState read junk noFailure nd state nd.count)
      (fun r => r.1 = true ∧ Holds r.2 log ∧ r.2.lineFile = nd.lineFile ∧ r.2.count = nd.count ∧
        r.2.lastLineWithState = nd.count)
      (fun _ => ∀ r, marshallNetworkState read junk .push [] state ≠ .ok r) := by
  unfold fileInsertState
  rw [noFailure, if_neg Bool.noConfusion]
  cases hpush : marshallNetworkState read junk .push [] state with
  | error e => exact nofun
  | ok r =>
      rw [ok_bind]
      dsimp only
      rw [if_neg Bool.noConfusion]
      refine ⟨rfl, ?_, rfl, rfl, rfl⟩
      have hkept : ∀ j, nd.states j ≠ none →
          Function.update nd.states nd.count (some r.2.1) j ≠ none := by
        intro j hj
        by_cases hjc : j = nd.count
        · rw [hjc, Function.update_self]
          exact Option.some_ne_none _
        · rwa [Function.update_of_ne hjc]
      exact { h with
        state := fun i e he => ⟨(h.state i e he).1, (h.state i e he).2.1,
          hkept _ (h.state i e he).2.2⟩
        last := by
          show Function.update nd.states nd.count (some r.2.1) nd.count ≠ none
          rw [Function.update_self]
          exact Option.some_ne_none _
        last_dvd := hdvd }

/-- How many lines the counters have room for: the next line finds the sum of the last snapshot's
count and the interval out of range. -/
def LINES_MAX : ℕ := 2147483001

/-- When the next snapshot is due can be told while the counters have room, and it is due one
interval behind the last. -/
theorem Rested.due (hr : Rested nd) (h : Holds nd log) :
    (nd.count < nd.lastLineWithState + STATE_DUMP_INTERVAL ∨
      nd.count = nd.lastLineWithState + STATE_DUMP_INTERVAL) ∧
    Ensures (intAdd nd.lastLineWithState STATE_DUMP_INTERVAL)
      (fun due => due = nd.lastLineWithState + STATE_DUMP_INTERVAL ∧ nd.count < LINES_MAX)
      (fun e => e = .overflow ∧ LINES_MAX ≤ nd.count) := by
  obtain ⟨hbefore, hrecent⟩ := hr
  obtain ⟨k, hk⟩ := h.last_dvd
  have hroom : nd.lastLineWithState + STATE_DUMP_INTERVAL < 2 ^ 31 ↔ nd.count < LINES_MAX := by
    rw [STATE_DUMP_INTERVAL] at hrecent hk ⊢
    rw [LINES_MAX]
    omega
  refine ⟨by omega, ?_⟩
  rw [intAdd]
  split
  · next hlt => exact ⟨rfl, hroom.mp hlt⟩
  · next hge => exact ⟨rfl, Nat.le_of_not_lt fun hlt => hge (hroom.mpr hlt)⟩

/-- Storing a line appends it to the log, with a snapshot in front of it if one is due; what can
stop it is a state that cannot be written, or a counter that is full. -/
theorem storeLine_ensures (h : Holds nd log) (hr : Rested nd) (hl : l.Printable)
    (ho : ∀ o ∈ l.origin, NoEol o)
    (hroom : nd.lineFile.data.length + (ircLineStringNl l).length < 2 ^ 63) :
    Ensures (storeLine read junk noFailure nd l now state)
      (fun r => r.1 = true ∧ Rested r.2 ∧ ∃ e, Holds r.2 (log ++ [e]) ∧ e.dated = (l, now))
      (fun _ => nd.count < LINES_MAX →
        ∀ r, marshallNetworkState read junk .push [] state ≠ .ok r) := by
  have hdue := (hr.due h).1
  have hstep : ∀ nd' : LinestackContext, Holds nd' log → nd'.lineFile = nd.lineFile →
      nd'.count = nd.count → nd'.lastLineWithState ≤ nd'.count →
      nd'.count < nd'.lastLineWithState + STATE_DUMP_INTERVAL →
      Ensures (writeLine noFailure nd' l now)
        (fun r => r.1 = true ∧ Rested r.2 ∧ ∃ e, Holds r.2 (log ++ [e]) ∧ e.dated = (l, now))
        (fun _ => nd.count < LINES_MAX →
          ∀ r, marshallNetworkState read junk .push [] state ≠ .ok r) := by
    intro nd' h' hfile hcount hle hlt
    rw [← hfile] at hroom
    refine (writeLine_ensures h' hl ho hroom hle hlt).mono ?_ ?_
    · rintro r ⟨hok, hh, hc, hlast⟩
      refine ⟨hok, ⟨.inl (by omega), by omega⟩, _, hh, rfl⟩
    · intro _ hfull hsmall
      rw [hcount] at hfull
      exact absurd hfull (by rw [LINES_MAX] at hsmall; omega)
  unfold storeLine
  refine ((hr.due h).2.mono (fun due hd => hd.1) fun _ hfull hsmall => ?_).bind ?_
  · exact absurd hsmall (Nat.not_lt.mpr hfull.2)
  rintro due rfl
  rcases hdue with hlt | heq
  · rw [if_neg (Nat.not_le.mpr hlt), pure_eq_ok, ok_bind]
    refine hstep nd h rfl rfl ?_ hlt
    rcases hr.before with hb | hb <;> omega
  · rw [if_pos heq.ge]
    have hdvd : STATE_DUMP_INTERVAL ∣ nd.count :=
      heq ▸ Nat.dvd_add h.last_dvd (Nat.dvd_refl _)
    refine ((fileInsertState_ensures h hdvd).mono (fun r hr => hr)
      fun _ hno _ => hno).bind ?_
    rintro ⟨ok, nd'⟩ ⟨hok, h', hfile, hcount, hlast⟩
    dsimp only at hok h' hfile hcount hlast ⊢
    rw [if_pos hok]
    refine hstep nd' h' hfile hcount (by omega) ?_
    rw [hlast, hcount]
    exact Nat.lt_add_of_pos_right (by rw [STATE_DUMP_INTERVAL]; decide)

/-- A full counter stops every line. -/
theorem storeLine_full (h : Holds nd log) (hr : Rested nd) (hfull : LINES_MAX ≤ nd.count) :
    storeLine read junk noFailure nd l now state = .error .overflow := by
  have hdue := (hr.due h).2
  unfold storeLine
  cases hadd : intAdd nd.lastLineWithState STATE_DUMP_INTERVAL with
  | ok due =>
      rw [hadd] at hdue
      exact absurd hfull (Nat.not_le.mpr hdue.2)
  | error e =>
      rw [hadd] at hdue
      rw [hdue.1, error_bind]

/-- A fresh store holds no line. -/
theorem createLinestack_holds {dir : LogDir} {r : Option LinestackContext}
    (h : createLinestack read junk noFailure dir true state = .ok r) :
    ∃ nd, r = some nd ∧ Holds nd [] ∧ Rested nd ∧ nd.count = 0 := by
  obtain ⟨nd₀, hopen, h⟩ := bind_eq_ok h
  cases hopen
  obtain ⟨⟨ok, nd⟩, hins, h⟩ := bind_eq_ok h
  rw [fileInsertState, noFailure, if_neg Bool.noConfusion] at hins
  obtain ⟨⟨ret, text, s'⟩, -, hins⟩ := bind_eq_ok hins
  cases hins
  cases h
  refine ⟨_, rfl, ?_, ⟨.inr rfl, Nat.zero_le _⟩, rfl⟩
  exact
    { lines := rfl
      lines_end := rfl
      lines_size := (by decide : 0 < 2 ^ 63)
      index := rfl
      index_end := rfl
      count := rfl
      count_size := (by decide : 0 < 2 ^ 31)
      offset := fun _ _ he => by cases he
      state := fun _ _ he => by cases he
      line := fun _ he => by cases he
      last := by
        dsimp only
        rw [Function.update_self]
        exact Option.some_ne_none _
      last_dvd := Nat.dvd_zero _ }

end

end Ctrlproxy
