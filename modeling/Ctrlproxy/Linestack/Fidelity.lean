import Ctrlproxy.Linestack.Log

/-!
# Linestack — the log is faithful

A session is a store in use: lines are inserted, markers are taken, ranges are traversed, in any
order.  It remembers which lines were to be kept, and how many of them there were when a marker was
taken.  `reachable_faithful` is what holds in every session: what is between two markers is handed
over as it was inserted, and the index says where each line starts and which snapshot it goes with.
The counters are `int`s, and `log_not_unbounded` is the session that fills them.
-/

namespace Ctrlproxy
open Outcome

/-- A marker, and how many lines the log was to keep when it was taken. -/
structure Marker where
  value : ℕ
  lines : ℕ

/-- A store in use. -/
structure Session where
  nd : LinestackContext
  accepted : List (IrcLine × Long)
  markers : List Marker

/-- What is done with a store. -/
inductive SessionOp : Type 1 where
  | insert (l : IrcLine) (dir : DataDirection) (now : Long) (state : NetworkState)
  | marker
  | traverse {H : Type} (lmFrom lmTo : Option ℕ) (handler : TraverseFn H) (userdata : H)

namespace Session

/-- A session with a store nothing was inserted to. -/
def start (nd : LinestackContext) : Session := ⟨nd, [], []⟩

def step (read : LineReader) (junk : Junk) (s : Session) : SessionOp → Except Fault Session
  | .insert l dir now state => do
      let (_, nd) ← linestackInsertLine read junk noFailure s.nd l dir now state
      pure ⟨nd, if Accepted l dir then s.accepted ++ [(l, now)] else s.accepted, s.markers⟩
  | .marker =>
      .ok { s with markers := s.markers ++ [⟨linestackGetMarker s.nd, s.accepted.length⟩] }
  | .traverse lmFrom lmTo handler userdata => do
      let (_, nd, _) ← linestackTraverse read s.nd lmFrom lmTo handler userdata
      pure { s with nd := nd }

/-- A line comes from the parser, without a line end in its origin, and the file of lines has room
for it; a range is between markers that were taken, or open. -/
def Admits (s : Session) : SessionOp → Prop
  | .insert l _ _ _ => (∃ d, ircParseLine d = some l) ∧ (∀ o ∈ l.origin, NoEol o) ∧
      s.nd.lineFile.data.length + (ircLineStringNl l).length < 2 ^ 63
  | .marker => True
  | .traverse lmFrom lmTo _ _ =>
      (∀ m ∈ lmFrom, m ∈ s.markers.map Marker.value) ∧
      ∀ m ∈ lmTo, m ∈ s.markers.map Marker.value

/-- The state a line comes with can be written: `marshall_network_state` asserts that every nick
has a name and that no string has a newline in it. -/
def Writable (read : LineReader) (junk : Junk) : SessionOp → Prop
  | .insert _ _ _ state => ∃ r, marshallNetworkState read junk .push [] state = .ok r
  | .marker => True
  | .traverse _ _ _ _ => True

/-- The lines between two markers. -/
def between (s : Session) (a b : Marker) : List (IrcLine × Long) :=
  (s.accepted.drop a.lines).take (b.lines - a.lines)

/-- Where the `i`-th line starts in the file of lines. -/
def lineStart (s : Session) (i : ℕ) : ℕ :=
  ((s.accepted.take i).flatMap fun l => ircLineStringNl l.1).length

end Session

/-- The `i`-th record of the index: an offset, a time, the index of a snapshot. -/
def LinestackContext.record (nd : LinestackContext) (i : ℕ) : ℕ × Long × ℕ :=
  let r := nd.indexFile.data.drop (i * INDEX_RECORD_SIZE)
  (ofOctets (r.take 8), timeOf (ofOctets ((r.drop 8).take 8)), ofOctets ((r.drop 16).take 8))

/-! ### What every session keeps -/

/-- The store of a session holds the lines it was to keep, and the markers count them. -/
structure Session.Good (s : Session) : Prop where
  holds : ∃ log, Holds s.nd log ∧ s.accepted = log.map Entry.dated
  rested : Rested s.nd
  markers : ∀ m ∈ s.markers, m.value = m.lines ∧ m.lines ≤ s.accepted.length

section
variable {read : LineReader} {junk : Junk} {s : Session} {op : SessionOp}

theorem IrcLine.Printable.args_noEol {l : IrcLine} (h : l.Printable) : ∀ a ∈ l.args, NoEol a := by
  obtain ⟨-, a, as, hargs, ha, has, -, -⟩ := h
  rw [hargs]
  intro b hb
  rcases List.mem_cons.mp hb with rfl | hb
  · exact ha.noEol
  · exact has.noEol b hb

theorem Session.Good.start {nd : LinestackContext} (h : Holds nd []) (hr : Rested nd) :
    (Session.start nd).Good :=
  ⟨⟨[], h, rfl⟩, hr, fun _ hm => by cases hm⟩

/-- Every operation keeps a session good; only an insertion can stop, for want of room in the
counters or of a state that can be written. -/
theorem Session.Good.step (hread : ReadsCrLf read) (h : s.Good) (hop : s.Admits op) :
    Ensures (s.step read junk op) Session.Good
      (fun _ => s.accepted.length < LINES_MAX → ¬Session.Writable read junk op) := by
  obtain ⟨⟨log, hh, hacc⟩, hr, hmarkers⟩ := h
  have hlength : s.accepted.length = log.length := by rw [hacc, List.length_map]
  cases op with
  | insert l dir now state =>
      obtain ⟨⟨d, hd⟩, ho, hroom⟩ := hop
      have hl := ircParseLine_printable hd
      by_cases ha : Accepted l dir
      · rw [Session.step, linestackInsertLine_accepted ha hl.args_noEol]
        refine ((storeLine_ensures hh hr hl ho hroom).mono (fun r hr => hr) ?_).bind ?_
        · rintro e hno hsmall ⟨r, hpush⟩
          exact hno (by rwa [hh.count, ← hlength]) r hpush
        · rintro ⟨ok, nd⟩ ⟨-, hr', e, hh', he⟩
          rw [if_pos ha]
          refine ⟨⟨log ++ [e], hh', ?_⟩, hr', fun m hm => ⟨(hmarkers m hm).1, ?_⟩⟩
          · rw [hacc, List.map_append, List.map_singleton, he]
          · rw [List.length_append]
            exact (hmarkers m hm).2.trans (Nat.le_add_right _ _)
      · rw [Session.step, linestackInsertLine_rejected ha, ok_bind]
        dsimp only
        rw [if_neg ha]
        exact ⟨⟨log, hh, hacc⟩, hr, hmarkers⟩
  | marker =>
      refine ⟨⟨log, hh, hacc⟩, hr, fun m hm => ?_⟩
      rcases List.mem_append.mp hm with hm | hm
      · exact hmarkers m hm
      · rw [List.mem_singleton.mp hm]
        exact ⟨hh.count.trans hlength.symm, le_rfl⟩
  | traverse lmFrom lmTo handler u =>
      have hin : ∀ m ∈ s.markers.map Marker.value, m ≤ log.length := by
        intro m hm
        obtain ⟨k, hk, rfl⟩ := List.mem_map.mp hm
        rw [(hmarkers k hk).1, ← hlength]
        exact (hmarkers k hk).2
      obtain ⟨ret, u', htraverse⟩ := linestackTraverse_same handler hread hh
        (fun m hm => hin m (hop.1 m hm)) (fun m hm => hin m (hop.2 m hm)) u
      rw [Session.step, htraverse]
      exact ⟨⟨log, hh, hacc⟩, hr, hmarkers⟩

/-- The record of a line in the index of a good session. -/
theorem Holds.record_eq {nd : LinestackContext} {log : List Entry} (h : Holds nd log) {i : ℕ}
    {e : Entry} (he : log[i]? = some e) : nd.record i = (e.offset, e.time, e.state) := by
  have htime : (timeOctets e.time).length = 8 := length_toOctets _ _
  have hstate : e.state < 2 ^ 64 := by
    have hi := (List.getElem?_eq_some_iff.mp he).1
    have := h.state i e he
    have := h.count
    have := h.count_size
    omega
  obtain ⟨r, hr⟩ : ∃ r, r = nd.indexFile.data.drop (i * INDEX_RECORD_SIZE) := ⟨_, rfl⟩
  have h0 : r = toOctets 8 e.offset ++ (timeOctets e.time ++ (toOctets 8 e.state ++
      (log.drop (i + 1)).flatMap Entry.record)) := by
    rw [hr, h.index_drop he]
    simp only [Entry.record, List.append_assoc]
  have h8 : r.drop 8 = timeOctets e.time ++ (toOctets 8 e.state ++
      (log.drop (i + 1)).flatMap Entry.record) := by
    rw [h0, List.drop_left' (length_toOctets _ _)]
  have h16 : r.drop 16 = toOctets 8 e.state ++ (log.drop (i + 1)).flatMap Entry.record :=
    calc r.drop 16 = (r.drop 8).drop 8 := by rw [List.drop_drop]
      _ = _ := by rw [h8, List.drop_left' htime]
  rw [LinestackContext.record, ← hr, h16, h8, h0, List.take_left' (length_toOctets _ _), List.take_left' htime,
    List.take_left' (length_toOctets _ _), ofOctets_toOctets_eight (h.offset_lt he),
    timeOf_timeOctets, ofOctets_toOctets_eight hstate]

/-- **The log is faithful.** In every session with a new store: a traversal between two markers
calls an always-true handler on the lines that were accepted in between, as they were, in order and
once each, and leaves the store as it is; the record of each line in the index has the place where
the line starts, and a snapshot that exists, less than an interval back; and every operation
completes while the log has fewer than `LINES_MAX` lines. -/
theorem reachable_faithful (hread : ReadsCrLf read) {dir : LogDir} {state : NetworkState}
    {nd : LinestackContext}
    (hnew : createLinestack read junk noFailure dir true state = .ok (some nd))
    (h : Reach (Session.step read junk) Session.Admits (Session.start nd) s) :
    (∀ a ∈ s.markers, ∀ b ∈ s.markers, a.value ≤ b.value →
      ∀ (H : Type) (handler : TraverseFn H), AlwaysTrue handler → ∀ u,
        linestackTraverse read s.nd (some a.value) (some b.value) handler u =
          .ok (true, s.nd, handAll handler u (s.between a b))) ∧
    (s.nd.count = s.accepted.length ∧ ∀ i < s.nd.count, ∃ l t j, s.accepted[i]? = some (l, t) ∧
      s.nd.record i = (s.lineStart i, t, j) ∧
      ircLineStringNl l <+: s.nd.lineFile.data.drop (s.lineStart i) ∧
      j ≤ i ∧ i - j < STATE_DUMP_INTERVAL ∧ s.nd.states j ≠ none) ∧
    ∀ op, s.Admits op → Session.Writable read junk op → s.accepted.length < LINES_MAX →
      ∃ s', s.step read junk op = .ok s' := by
  obtain ⟨nd', hnd, hh₀, hr₀, -⟩ := createLinestack_holds hnew
  cases hnd
  have hgood : s.Good := h.invariant (.start hh₀ hr₀) fun s op hs hop =>
    (hs.step hread hop).mono (fun _ hs' => hs') fun _ _ => trivial
  obtain ⟨⟨log, hh, hacc⟩, hr, hmarkers⟩ := id hgood
  have hlength : s.accepted.length = log.length := by rw [hacc, List.length_map]
  refine ⟨?_, ⟨hh.count.trans hlength.symm, ?_⟩, ?_⟩
  · intro a ha b hb hab H handler hall u
    obtain ⟨hav, hal⟩ := hmarkers a ha
    obtain ⟨hbv, hbl⟩ := hmarkers b hb
    rw [linestackTraverse_all hall hread hh hab (by omega) u, Session.between, hacc, hav, hbv,
      List.map_take, List.map_drop]
  · intro i hi
    rw [hh.count] at hi
    have he : log[i]? = some log[i] := List.getElem?_eq_getElem hi
    have hstart : s.lineStart i = log[i].offset := by
      rw [hh.offset i _ he, Session.lineStart, hacc, ← List.map_take, List.flatMap_map]
      rfl
    obtain ⟨hle, hlt, hsome⟩ := hh.state i _ he
    refine ⟨log[i].line, log[i].time, log[i].state, ?_, ?_, ?_, hle, by omega, hsome⟩
    · rw [hacc, List.getElem?_map, he]
      rfl
    · rw [hh.record_eq he, hstart]
    · rw [hstart, hh.lines_drop he]
      exact List.prefix_append _ _
  · intro op hop hw hsmall
    have : Ensures (s.step read junk op) Session.Good _ := hgood.step hread hop
    cases hstep : s.step read junk op with
    | ok s' => exact ⟨s', rfl⟩
    | error e =>
        rw [hstep] at this
        exact absurd hw (this hsmall)

end

/-! ### Full counters -/

/-- A line of six bytes that the log keeps. -/
def nickLine : IrcLine := ⟨none, [str "NICK"], .withoutColon⟩

/-- Read up to CR and LF. -/
def readToCrLf : LineReader := fun t =>
  (t.takeWhile (fun b => b ≠ chr '\r' ∧ b ≠ chr '\n'), str "\r\n")

theorem readToCrLf_readsCrLf : ReadsCrLf readToCrLf := by
  intro x rest hx
  have hpos : ∀ b ∈ x, decide (b ≠ chr '\r' ∧ b ≠ chr '\n') = true :=
    fun b hb => decide_eq_true (hx b hb)
  have hcr : (str "\r\n" ++ rest).takeWhile (fun b => b ≠ chr '\r' ∧ b ≠ chr '\n') = [] := rfl
  rw [readToCrLf, List.append_assoc, List.takeWhile_append_of_pos hpos, hcr, List.append_nil]

/-- The state of a user without channels. -/
def freshState : NetworkState := networkStateInit (str "me") (str "user") (str "host")

theorem freshState_writable :
    ∃ r, marshallNetworkState readToCrLf zeroes .push [] freshState = .ok r := by
  have hrun : (marshallNetworkState readToCrLf zeroes .push [] freshState).map (fun r => r.1) =
      .ok true := by
    decide
  obtain ⟨r, hr, -⟩ := map_eq_ok hrun
  exact ⟨r, hr⟩

theorem freshStore : ∃ nd, createLinestack readToCrLf zeroes noFailure ⟨[], [], fun _ => none⟩ true
    freshState = .ok (some nd) ∧ (Session.start nd).Good := by
  obtain ⟨r, hr⟩ := freshState_writable
  have hnew : createLinestack readToCrLf zeroes noFailure ⟨[], [], fun _ => none⟩ true freshState =
      .ok (some ⟨.empty, .empty, Function.update (fun _ => none) 0 (some r.2.1), 0, 0⟩) := by
    unfold createLinestack fileInsertState
    rw [hr]
    rfl
  obtain ⟨nd, hnd, hh, hrest, -⟩ := createLinestack_holds hnew
  cases hnd
  exact ⟨_, hnew, .start hh hrest⟩

/-- The line comes from the server. -/
def insertNick : SessionOp := .insert nickLine .fromServer long0 freshState

theorem nickLine_accepted : Accepted nickLine .fromServer := by decide

theorem nickLine_text : (ircLineStringNl nickLine).length = 6 := by decide

theorem insertNick_admitted {s : Session} (h : s.nd.lineFile.data.length + 6 < 2 ^ 63) :
    s.Admits insertNick := by
  refine ⟨⟨str "NICK", by decide⟩, nofun, ?_⟩
  rw [nickLine_text]
  exact h

section
variable {nd : LinestackContext} {s : Session}

/-- The lines of a good session, on file. -/
theorem Session.Good.lines_length (h : s.Good) :
    s.nd.lineFile.data.length = (s.accepted.flatMap fun l => ircLineStringNl l.1).length := by
  obtain ⟨⟨log, hh, hacc⟩, -, -⟩ := h
  rw [hh.lines, hacc, List.flatMap_map]
  rfl

/-- While there is room, the line is inserted once more. -/
theorem insertNick_step (h : s.Good) {k : ℕ} (hk : s.accepted = List.replicate k (nickLine, long0))
    (hsmall : k < LINES_MAX) :
    s.Admits insertNick ∧ ∃ s', s.step readToCrLf zeroes insertNick = .ok s' ∧ s'.Good ∧
      s'.accepted = List.replicate (k + 1) (nickLine, long0) ∧ s'.markers = s.markers := by
  have hop : s.Admits insertNick := by
    refine insertNick_admitted ?_
    rw [h.lines_length, hk, length_flatMap_of_length (k := 6), List.length_replicate]
    · rw [LINES_MAX] at hsmall
      omega
    · intro l hl
      rw [List.eq_of_mem_replicate hl]
      exact nickLine_text
  have hgood : Ensures (s.step readToCrLf zeroes insertNick) Session.Good _ :=
    h.step readToCrLf_readsCrLf hop
  refine ⟨hop, ?_⟩
  cases hstep : s.step readToCrLf zeroes insertNick with
  | error e =>
      rw [hstep] at hgood
      exact absurd freshState_writable (hgood (by rwa [hk, List.length_replicate]))
  | ok s' =>
      rw [hstep] at hgood
      obtain ⟨⟨ok, nd⟩, -, hs'⟩ := bind_eq_ok hstep
      cases hs'
      refine ⟨_, rfl, hgood, ?_, rfl⟩
      dsimp only
      rw [if_pos nickLine_accepted, hk, List.replicate_succ']

/-- The session of `k` such lines. -/
theorem nicks_inserted (h : (Session.start nd).Good) {k : ℕ} (hk : k ≤ LINES_MAX) :
    ∃ s, Reach (Session.step readToCrLf zeroes) Session.Admits (Session.start nd) s ∧ s.Good ∧
      s.accepted = List.replicate k (nickLine, long0) := by
  induction k with
  | zero => exact ⟨_, .refl, h, rfl⟩
  | succ k ih =>
      obtain ⟨s, hs, hg, hacc⟩ := ih (Nat.le_of_succ_le hk)
      obtain ⟨hop, s', hstep, hg', hacc', -⟩ := insertNick_step hg hacc hk
      exact ⟨s', hs.step hop hstep, hg', hacc'⟩

end

/-- After `LINES_MAX` lines the next one makes the proxy add beyond the range of an `int`. -/
theorem log_not_unbounded :
    ∃ nd, createLinestack readToCrLf zeroes noFailure ⟨[], [], fun _ => none⟩ true freshState =
        .ok (some nd) ∧
      ∃ s, Reach (Session.step readToCrLf zeroes) Session.Admits (Session.start nd) s ∧
        s.accepted = List.replicate LINES_MAX (nickLine, long0) ∧ s.Admits insertNick ∧
        Session.Writable readToCrLf zeroes insertNick ∧
        s.step readToCrLf zeroes insertNick = .error .overflow := by
  obtain ⟨nd, hnew, hstart⟩ := freshStore
  obtain ⟨s, hs, hg, hacc⟩ := nicks_inserted hstart le_rfl
  refine ⟨nd, hnew, s, hs, hacc, ?_, freshState_writable, ?_⟩
  · refine insertNick_admitted ?_
    rw [hg.lines_length, hacc, length_flatMap_of_length (k := 6), List.length_replicate]
    · rw [LINES_MAX]
      omega
    · intro l hl
      rw [List.eq_of_mem_replicate hl]
      exact nickLine_text
  · obtain ⟨⟨log, hh, hlog⟩, hr, -⟩ := hg
    have hfull : LINES_MAX ≤ s.nd.count := by
      have hlen : (log.map Entry.dated).length = log.length := List.length_map _
      rw [hh.count, ← hlen, ← hlog, hacc, List.length_replicate]
    rw [insertNick, Session.step, linestackInsertLine_accepted nickLine_accepted (by decide),
      storeLine_full hh hr hfull, error_bind]

/-- One line, between two markers. -/
theorem reachable_faithful_nick :
    ∃ nd, createLinestack readToCrLf zeroes noFailure ⟨[], [], fun _ => none⟩ true freshState =
        .ok (some nd) ∧
      ∃ s, Reach (Session.step readToCrLf zeroes) Session.Admits (Session.start nd) s ∧
        s.markers = [⟨0, 0⟩, ⟨1, 1⟩] ∧
        linestackTraverse readToCrLf s.nd (some 0) (some 1) (fun l _ u => (true, u ++ [l])) [] =
          .ok (true, s.nd, [some nickLine]) := by
  obtain ⟨nd, hnew, hg₀⟩ := freshStore
  have hcount : ∀ {s : Session}, s.Good → s.nd.count = s.accepted.length := by
    rintro s ⟨⟨log, hh, hacc⟩, -, -⟩
    rw [hh.count, hacc, List.length_map]
  have hmark : Ensures ((Session.start nd).step readToCrLf zeroes .marker) Session.Good _ :=
    hg₀.step readToCrLf_readsCrLf trivial
  have hg₁ := hmark.of_ok rfl
  obtain ⟨hop, s₂, hstep, hg₂, hacc, hmarkers⟩ := insertNick_step (k := 0) hg₁ rfl (by decide)
  have hr : Reach (Session.step readToCrLf zeroes) Session.Admits (Session.start nd)
      { s₂ with markers := s₂.markers ++ [⟨s₂.nd.count, s₂.accepted.length⟩] } :=
    ((Reach.refl.step (i := .marker) trivial rfl).step hop hstep).step (i := .marker) trivial rfl
  have hm : s₂.markers ++ [⟨s₂.nd.count, s₂.accepted.length⟩] = [⟨0, 0⟩, ⟨1, 1⟩] := by
    rw [hmarkers, hcount hg₂, hacc]
    have h0 : nd.count = 0 := hcount hg₀
    show ([⟨nd.count, 0⟩, _] : List Marker) = _
    rw [h0]
    rfl
  refine ⟨nd, hnew, _, hr, hm, ?_⟩
  have hall := (reachable_faithful readToCrLf_readsCrLf hnew hr).1 ⟨0, 0⟩
    (hm ▸ List.mem_cons_self) ⟨1, 1⟩ (hm ▸ List.mem_cons_of_mem _ List.mem_cons_self) (Nat.zero_le _)
    (List (Option IrcLine)) (fun l _ u => (true, u ++ [l])) (fun _ _ _ => rfl) []
  rw [hall, Session.between, hacc]
  rfl

end Ctrlproxy
