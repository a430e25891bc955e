import Ctrlproxy.Linestack.Fidelity

/-!
# Linestack — writes that fail

An insertion writes a snapshot, if one is due, then the three fields of a record to the index, then
the line, and counts the line last; a write that fails ends it.  What was written by then stays.  A
failure of the first write leaves nothing behind (`Harmless`).  Any other leaves a snapshot, without
contents or of a state that came with no line, or a record or part of one that moves the records of
all later lines.
-/

namespace Ctrlproxy
open Outcome

/-- An insertion, and the writes that fail in it. -/
structure InsertOp where
  line : IrcLine
  dir : DataDirection
  now : Long
  state : NetworkState
  fails : WriteSite → Bool

/-- A store in use, and the lines whose insertion succeeded. -/
structure FailingSession where
  nd : LinestackContext
  stored : List (IrcLine × Long)

namespace FailingSession

/-- A store nothing was inserted to. -/
def start (nd : LinestackContext) : FailingSession := ⟨nd, []⟩

def step (read : LineReader) (junk : Junk) (s : FailingSession) (op : InsertOp) :
    Except Fault FailingSession := do
  let (ok, nd) ← linestackInsertLine read junk op.fails s.nd op.line op.dir op.now op.state
  pure ⟨nd, if ok = true ∧ Accepted op.line op.dir then s.stored ++ [(op.line, op.now)] else s.stored⟩

end FailingSession

/-- A snapshot that was written to its end. -/
def Complete (read : LineReader) (junk : Junk) (nd : LinestackContext) (j : ℕ) : Prop :=
  ∃ state r, marshallNetworkState read junk .push [] state = .ok r ∧ nd.states j = some r.2.1

/-- Every interval is read as the lines that were stored, and the state at every marker starts from a
snapshot that was written. -/
structure Consistent (read : LineReader) (junk : Junk) (s : FailingSession) : Prop where
  count : s.nd.count = s.stored.length
  traverse : ∀ lmFrom lmTo : Option ℕ, lmFrom.getD 0 ≤ lmTo.getD s.nd.count →
    lmTo.getD s.nd.count ≤ s.nd.count →
    ∀ (H : Type) (handler : TraverseFn H), AlwaysTrue handler → ∀ u,
      linestackTraverse read s.nd lmFrom lmTo handler u = .ok (true, s.nd, handAll handler u
        ((s.stored.drop (lmFrom.getD 0)).take (lmTo.getD s.nd.count - lmFrom.getD 0)))
  marker : ∀ i < s.nd.count, (s.nd.record i).2.2 ≤ i ∧ Complete read junk s.nd (s.nd.record i).2.2
  last : s.nd.lastLineWithState ≤ s.nd.count ∧ Complete read junk s.nd s.nd.lastLineWithState

/-- A snapshot is due before the next line. -/
def SnapshotDue (nd : LinestackContext) : Prop :=
  nd.lastLineWithState + STATE_DUMP_INTERVAL ≤ nd.count

/-- No write of a line and its record fails. -/
def LineSpared (fails : WriteSite → Bool) : Prop :=
  fails .lineOffset = false ∧ fails .lineTime = false ∧ fails .stateIndex = false ∧
    fails .line = false

/-- If a write fails, it is the first one. -/
structure Harmless (nd : LinestackContext) (fails : WriteSite → Bool) : Prop where
  snapshot : SnapshotDue nd →
    fails .stateOpen = true ∨ fails .stateFlush = false ∧ LineSpared fails
  record : ¬SnapshotDue nd → fails .lineOffset = true ∨ LineSpared fails

/-- A line comes from the parser, without a line end in its origin, and the file of lines has room
for it. -/
def FailingSession.Allows (s : FailingSession) (op : InsertOp) : Prop :=
  (∃ d, ircParseLine d = some op.line) ∧ (∀ o ∈ op.line.origin, NoEol o) ∧
    s.nd.lineFile.data.length + (ircLineStringNl op.line).length < 2 ^ 63

/-- If the log is to keep the line, its writes fail without harm. -/
def FailingSession.Admits (s : FailingSession) (op : InsertOp) : Prop :=
  s.Allows op ∧ (Accepted op.line op.dir → Harmless s.nd op.fails)

/-! ### What is kept -/

/-- The store holds the lines that were stored, and every snapshot it has was written to its end. -/
structure FailingSession.Sound (read : LineReader) (junk : Junk) (s : FailingSession) : Prop where
  holds : ∃ log, Holds s.nd log ∧ s.stored = log.map Entry.dated
  complete : ∀ j, s.nd.states j ≠ none → Complete read junk s.nd j
  before : s.nd.lastLineWithState ≤ s.nd.count
  recent : s.nd.count ≤ s.nd.lastLineWithState + STATE_DUMP_INTERVAL

section
variable {read : LineReader} {junk : Junk} {s : FailingSession} {nd : LinestackContext} {l : IrcLine}
  {now : Long} {state : NetworkState} {fails : WriteSite → Bool} {op : InsertOp}

/-- Where no write fails, it does not matter which ones could. -/
theorem writeChars_spared {α : Type} {site : WriteSite} (h : fails site = false) (f : File α)
    (xs : List α) : writeChars fails site f xs = writeChars noFailure site f xs := by
  rw [writeChars, writeChars, h]
  rfl

theorem writeIndexEntry_spared (h : LineSpared fails) (ioc : File Octet) (offset j : ℕ) :
    writeIndexEntry fails ioc offset now j = writeIndexEntry noFailure ioc offset now j := by
  obtain ⟨hoffset, htime, hindex, -⟩ := h
  rw [writeIndexEntry, writeIndexEntry, writeChars_spared hoffset]
  cases writeChars noFailure .lineOffset ioc (toOctets 8 offset) with
  | none => rfl
  | some ioc =>
      dsimp only
      rw [writeChars_spared htime]
      cases writeChars noFailure .lineTime ioc (timeOctets now) with
      | none => rfl
      | some ioc =>
          dsimp only
          rw [writeChars_spared hindex]

theorem writeLine_spared (h : LineSpared fails) :
    writeLine fails nd l now = writeLine noFailure nd l now := by
  rw [writeLine, writeLine, writeIndexEntry_spared h]
  rcases writeIndexEntry noFailure nd.indexFile nd.lineFile.pos now nd.lastLineWithState with ⟨ok, index⟩
  dsimp only
  rw [writeChars_spared h.2.2.2]

theorem fileInsertState_spared (hopen : fails .stateOpen = false) (hflush : fails .stateFlush = false)
    (j : ℕ) : fileInsertState read junk fails nd state j =
      fileInsertState read junk noFailure nd state j := by
  rw [fileInsertState, fileInsertState, hopen, hflush]
  rfl

/-- A record whose first field is not written leaves the store as it is. -/
theorem writeLine_unbegun (hoffset : fails .lineOffset = true) :
    writeLine fails nd l now = .ok (false, nd) := by
  rw [writeLine, writeIndexEntry, writeChars, hoffset]
  rfl

theorem writeLine_states :
    Ensures (writeLine fails nd l now) (fun r => r.2.states = nd.states) fun _ => True := by
  unfold writeLine
  dsimp only
  split
  · rfl
  · cases writeChars fails .line nd.lineFile (ircLineStringNl l) with
    | none => rfl
    | some f =>
        dsimp only
        cases intAdd nd.count 1 with
        | error e => trivial
        | ok count => rfl

theorem FailingSession.Sound.writeLine (h : s.Sound read junk) (hl : l.Printable)
    (ho : ∀ o ∈ l.origin, NoEol o)
    (hroom : s.nd.lineFile.data.length + (ircLineStringNl l).length < 2 ^ 63)
    (hlt : s.nd.count < s.nd.lastLineWithState + STATE_DUMP_INTERVAL) (hspared : LineSpared fails) :
    Ensures (Ctrlproxy.writeLine fails s.nd l now)
      (fun r => r.1 = true ∧ FailingSession.Sound read junk ⟨r.2, s.stored ++ [(l, now)]⟩)
      fun _ => True := by
  rw [writeLine_spared hspared]
  obtain ⟨⟨log, hh, hstored⟩, hcomplete, hbefore, -⟩ := h
  have written := @writeLine_ensures s.nd log l now hh hl ho hroom hbefore hlt
  refine ((written.mono (fun _ h => h) fun _ _ => trivial).and writeLine_states).mono ?_
    fun _ _ => trivial
  rintro ⟨ok, nd'⟩ ⟨⟨hok, hh', hcount, hlast⟩, hstates⟩
  dsimp only at hok hh' hcount hlast hstates
  refine ⟨hok, ⟨_, hh', ?_⟩, ?_, ?_, ?_⟩
  · rw [hstored, List.map_append]
    rfl
  · intro j hj
    dsimp only at hj ⊢
    rw [hstates] at hj
    obtain ⟨st, r, hr, hj⟩ := hcomplete j hj
    exact ⟨st, r, hr, by rw [hstates, hj]⟩
  · dsimp only
    omega
  · dsimp only
    omega

/-- A snapshot that is due is written to its end. -/
theorem FailingSession.Sound.snapshot (h : s.Sound read junk) (hdue : SnapshotDue s.nd)
    (hopen : fails .stateOpen = false) (hflush : fails .stateFlush = false) :
    Ensures (fileInsertState read junk fails s.nd state s.nd.count) (fun r => r.1 = true ∧
      FailingSession.Sound read junk ⟨r.2, s.stored⟩ ∧ r.2.lineFile = s.nd.lineFile ∧
        r.2.count < r.2.lastLineWithState + STATE_DUMP_INTERVAL) fun _ => True := by
  rw [fileInsertState_spared hopen hflush]
  obtain ⟨⟨log, hh, hstored⟩, hcomplete, -, hrecent⟩ := h
  have hdvd : STATE_DUMP_INTERVAL ∣ s.nd.count := by
    rw [show s.nd.count = s.nd.lastLineWithState + STATE_DUMP_INTERVAL from le_antisymm hrecent hdue]
    exact Nat.dvd_add hh.last_dvd (Nat.dvd_refl _)
  have inserted := @fileInsertState_ensures read junk s.nd log state hh hdvd
  cases hpush : marshallNetworkState read junk .push [] state with
  | error e =>
      rw [fileInsertState, noFailure, if_neg Bool.noConfusion, hpush]
      trivial
  | ok r =>
      have text : fileInsertState read junk noFailure s.nd state s.nd.count = .ok (true,
          { s.nd with
            lastLineWithState := s.nd.count
            states := Function.update s.nd.states s.nd.count (some r.2.1) }) := by
        rw [fileInsertState, noFailure, if_neg Bool.noConfusion, hpush]
        rfl
      rw [text] at inserted ⊢
      refine ⟨rfl, ⟨⟨log, inserted.2.1, hstored⟩, fun j hj => ?_, le_rfl, Nat.le_add_right _ _⟩, rfl,
        Nat.lt_add_of_pos_right (by rw [STATE_DUMP_INTERVAL]; decide)⟩
      dsimp only at hj ⊢
      by_cases hjc : j = s.nd.count
      · subst hjc
        exact ⟨state, r, hpush, Function.update_self _ _ _⟩
      · rw [Function.update_of_ne hjc] at hj
        obtain ⟨st, r', hr', hj'⟩ := hcomplete j hj
        exact ⟨st, r', hr', (Function.update_of_ne hjc _ _).trans hj'⟩

/-- What an insertion that keeps a line leaves: the line stored, or the store as it was. -/
def AllOrNothing (read : LineReader) (junk : Junk) (s : FailingSession) (l : IrcLine) (now : Long)
    (r : Bool × LinestackContext) : Prop :=
  r.1 = true ∧ FailingSession.Sound read junk ⟨r.2, s.stored ++ [(l, now)]⟩ ∨ r = (false, s.nd)

theorem FailingSession.Sound.storeLine (h : s.Sound read junk) (hl : l.Printable)
    (ho : ∀ o ∈ l.origin, NoEol o)
    (hroom : s.nd.lineFile.data.length + (ircLineStringNl l).length < 2 ^ 63)
    (hsafe : Harmless s.nd fails) :
    Ensures (Ctrlproxy.storeLine read junk fails s.nd l now state) (AllOrNothing read junk s l now)
      fun _ => True := by
  refine Ensures.bind (Q := fun due => due = s.nd.lastLineWithState + STATE_DUMP_INTERVAL) ?_ ?_
  · unfold intAdd
    split <;> trivial
  rintro due rfl
  dsimp only
  by_cases hdue : SnapshotDue s.nd
  · rw [if_pos (show _ ≤ s.nd.count from hdue)]
    cases hopen : fails .stateOpen with
    | true =>
        rw [fileInsertState, if_pos hopen]
        exact .inr rfl
    | false =>
        obtain ⟨hflush, hspared⟩ := (hsafe.snapshot hdue).resolve_left (hopen ▸ Bool.noConfusion)
        refine (h.snapshot hdue hopen hflush).bind ?_
        rintro ⟨ok, nd'⟩ ⟨hok, hsound, hfile, hlt⟩
        dsimp only at hok hsound hfile hlt ⊢
        rw [if_pos hok]
        rw [← hfile] at hroom
        exact (hsound.writeLine hl ho hroom hlt hspared).mono (fun _ => .inl) fun _ _ => trivial
  · rw [if_neg (show ¬_ ≤ s.nd.count from hdue), pure_eq_ok, ok_bind]
    dsimp only
    rw [if_pos rfl]
    rcases hsafe.record hdue with hoffset | hspared
    · rw [writeLine_unbegun hoffset]
      exact .inr rfl
    · exact (h.writeLine hl ho hroom (Nat.lt_of_not_le hdue) hspared).mono (fun _ => .inl)
        fun _ _ => trivial

/-- An insertion stores its line, or leaves the store as it was. -/
theorem FailingSession.Sound.insertLine (h : s.Sound read junk) (hop : s.Admits op) :
    Ensures (linestackInsertLine read junk op.fails s.nd op.line op.dir op.now op.state)
      (fun r => if Accepted op.line op.dir then AllOrNothing read junk s op.line op.now r
        else r = (true, s.nd)) fun _ => True := by
  obtain ⟨⟨⟨d, hd⟩, ho, hroom⟩, hsafe⟩ := hop
  have hl := ircParseLine_printable hd
  by_cases ha : Accepted op.line op.dir
  · simp only [if_pos ha]
    rw [linestackInsertLine_accepted ha hl.args_noEol]
    exact h.storeLine hl ho hroom (hsafe ha)
  · simp only [if_neg ha]
    rw [linestackInsertLine_rejected ha]
    rfl

theorem FailingSession.Sound.step (h : s.Sound read junk) (hop : s.Admits op) :
    Ensures (s.step read junk op) (FailingSession.Sound read junk) fun _ => True := by
  refine (h.insertLine hop).bind ?_
  rintro ⟨ok, nd'⟩ hr
  dsimp only at hr ⊢
  by_cases ha : Accepted op.line op.dir
  · rw [if_pos ha] at hr
    rcases hr with ⟨hok, hsound⟩ | hr
    · rw [if_pos ⟨hok, ha⟩]
      exact hsound
    · cases hr
      rw [if_neg fun hboth => Bool.noConfusion hboth.1]
      exact h
  · rw [if_neg ha] at hr
    cases hr
    rw [if_neg fun hboth => ha hboth.2]
    exact h

/-- A new store starts from a snapshot that was written. -/
theorem FailingSession.Sound.start {dir : LogDir}
    (h : createLinestack read junk noFailure dir true state = .ok (some nd)) :
    (FailingSession.start nd).Sound read junk := by
  obtain ⟨nd', hnd, hh, hrest, hcount⟩ := createLinestack_holds h
  cases hnd
  refine ⟨⟨[], hh, rfl⟩, ?_, ?_, hrest.recent⟩
  · obtain ⟨nd₀, hopen, h⟩ := bind_eq_ok h
    cases hopen
    obtain ⟨⟨ok, nd₁⟩, hins, h⟩ := bind_eq_ok h
    rw [fileInsertState, noFailure, if_neg Bool.noConfusion] at hins
    obtain ⟨r, hpush, hins⟩ := bind_eq_ok hins
    cases hins
    cases h
    intro j hj
    by_cases hj0 : j = 0
    · subst hj0
      exact ⟨state, r, hpush, rfl⟩
    · exact absurd (Function.update_of_ne hj0 _ _) hj
  · rcases hrest.before with hb | hb
    · exact hb.le
    · exact hb ▸ Nat.zero_le _

theorem FailingSession.Sound.consistent (hread : ReadsCrLf read) (h : s.Sound read junk) :
    Consistent read junk s := by
  obtain ⟨⟨log, hh, hstored⟩, hcomplete, hbefore, -⟩ := h
  refine ⟨?_, ?_, ?_, hbefore, hcomplete _ hh.last⟩
  · rw [hh.count, hstored, List.length_map]
  · intro lmFrom lmTo hle hend H handler hall u
    rw [hh.count] at hend hle
    have hopen : linestackTraverse read s.nd lmFrom lmTo handler u = linestackTraverse read s.nd
        (some (lmFrom.getD 0)) (some (lmTo.getD s.nd.count)) handler u := rfl
    rw [hopen, hh.count, linestackTraverse_all hall hread hh hle hend u, hstored, List.map_take,
      List.map_drop]
  · intro i hi
    rw [hh.count] at hi
    obtain ⟨hle, -, hsome⟩ := hh.state i _ (List.getElem?_eq_getElem hi)
    rw [hh.record_eq (List.getElem?_eq_getElem hi)]
    exact ⟨hle, hcomplete _ hsome⟩

end

/-! ### A store that fails -/

namespace FailingSession

/-- A line without an origin that is read as it is printed, before a snapshot is due. -/
def Early (s : FailingSession) (op : InsertOp) : Prop :=
  ircParseLine (ircLineString op.line) = some op.line ∧ op.line.origin = none ∧
    s.nd.lineFile.data.length + (ircLineStringNl op.line).length < 2 ^ 63 ∧
    ¬s.nd.lastLineWithState + STATE_DUMP_INTERVAL ≤ s.nd.count

instance (s : FailingSession) (op : InsertOp) : Decidable (s.Early op) :=
  inferInstanceAs (Decidable (_ ∧ _))

theorem Early.allows {s : FailingSession} {op : InsertOp} (h : s.Early op) : s.Allows op := by
  obtain ⟨hparse, horigin, hroom, -⟩ := h
  exact ⟨⟨_, hparse⟩, by rw [horigin]; exact nofun, hroom⟩

/-- An early line, and no write fails but the first. -/
def EarlyHarmless (s : FailingSession) (op : InsertOp) : Prop :=
  s.Early op ∧ (op.fails .lineOffset = true ∨ op.fails .lineOffset = false ∧
    op.fails .lineTime = false ∧ op.fails .stateIndex = false ∧ op.fails .line = false)

instance (s : FailingSession) (op : InsertOp) : Decidable (s.EarlyHarmless op) :=
  inferInstanceAs (Decidable (_ ∧ _))

theorem EarlyHarmless.admits {s : FailingSession} {op : InsertOp} (h : s.EarlyHarmless op) :
    s.Admits op := by
  obtain ⟨hearly, hfails⟩ := h
  exact ⟨hearly.allows, fun _ => ⟨fun hdue => absurd hdue hearly.2.2.2, fun _ => hfails⟩⟩

end FailingSession

end Ctrlproxy
