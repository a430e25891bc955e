import Ctrlproxy.Linestack.Failures
import Ctrlproxy.Linestack.Reopen
import Ctrlproxy.Linestack.RoundTrip

/-!
# Linestack — the state at a marker

What `linestack_get_state` finds, in a log that lines and states are inserted to in any order.  A
snapshot is written with every thousandth line, of the state that came with it; the state at a marker is
the last snapshot before it, restored, with the lines from the snapshot to the marker replayed
(`reachable_state`).

The snapshot that is written with a line is of the state after that line, and the line is replayed
again.  There is no state at a marker that was taken before the first line.
-/

namespace Ctrlproxy
open Outcome

/-! ### Lines that are handed over -/

/-- What a handler makes of lines, up to the one it stops at. -/
def handWhile {H : Type} (handler : TraverseFn H) : H → List (IrcLine × Long) → Bool × H
  | u, [] => (true, u)
  | u, (l, t) :: ls =>
      let (ret, u) := handler (some l) t u
      if ret then handWhile handler u ls else (false, u)

/-- The lines of a log between two markers, or up to its end. -/
def rangeOf (lines : List (IrcLine × Long)) (mf mt : Option ℕ) : List (IrcLine × Long) :=
  (lines.drop (mf.getD 0)).take (mt.getD lines.length - mf.getD 0)

section
variable {read : LineReader} {nd nd' : LinestackContext} {log : List Entry}

/-- A traversal of `k` entries of the log hands them over in order, until it is stopped. -/
theorem traverseLoop_while {H : Type} (handler : TraverseFn H) (hread : ReadsCrLf read)
    (h : Holds nd log) {i k : ℕ} (hk : i + k ≤ log.length) (hm : Moved nd nd') (u : H) :
    ∃ nd'', Moved nd nd'' ∧ traverseLoop read handler k i nd' u =
      .ok ((handWhile handler u (((log.drop i).take k).map Entry.dated)).1, nd'',
        (handWhile handler u (((log.drop i).take k).map Entry.dated)).2) := by
  induction k generalizing i nd' u with
  | zero => exact ⟨nd', hm, rfl⟩
  | succ k ih =>
      have hi : i < log.length := by omega
      obtain ⟨nd₁, hentry, hm₁⟩ :=
        linestackReadEntry_eq hread h hm (List.getElem?_eq_getElem hi)
      rw [traverseLoop, hentry, ok_bind, List.drop_eq_getElem_cons hi, List.take_succ_cons,
        List.map_cons]
      dsimp only
      rw [Entry.dated, handWhile]
      rcases handler (some log[i].line) log[i].time u with ⟨ret, u'⟩
      cases ret with
      | false => exact ⟨nd₁, hm₁, rfl⟩
      | true => exact ih (by omega : i + 1 + k ≤ log.length) hm₁ u'

/-- `linestack_traverse` hands over the lines of a range, until it is stopped, and leaves the store as
it was. -/
theorem linestackTraverse_while {H : Type} (handler : TraverseFn H) (hread : ReadsCrLf read)
    (h : Holds nd log) (hm : Moved nd nd') (mf : Option ℕ) {mt : Option ℕ}
    (hmt : ∀ m ∈ mt, m ≤ log.length) (u : H) :
    linestackTraverse read nd' mf mt handler u =
      .ok ((handWhile handler u (rangeOf (log.map Entry.dated) mf mt)).1, nd,
        (handWhile handler u (rangeOf (log.map Entry.dated) mf mt)).2) := by
  have hcount : nd'.count = log.length := hm.count.trans h.count
  have hend : mt.getD nd'.count ≤ log.length := by
    cases mt with
    | none => exact hcount.le
    | some m => exact hmt m rfl
  have hlines : rangeOf (log.map Entry.dated) mf mt =
      ((log.drop (mf.getD 0)).take (mt.getD nd'.count - mf.getD 0)).map Entry.dated := by
    rw [rangeOf, List.length_map, ← hcount, List.map_take, List.map_drop]
  unfold linestackTraverse
  dsimp only
  rw [hlines]
  rcases Nat.le_total (mf.getD 0) (mt.getD nd'.count) with hle | hle
  · obtain ⟨nd'', hm', hloop⟩ := traverseLoop_while handler hread h
      ((Nat.add_sub_cancel' hle).trans_le hend) hm u
    rw [hloop, ok_bind]
    dsimp only
    rw [hm'.seekEnd h.lines_end h.index_end]
    rfl
  · -- an empty range
    rw [Nat.sub_eq_zero_of_le hle, traverseLoop, ok_bind]
    dsimp only
    rw [hm.seekEnd h.lines_end h.index_end, List.take_zero, List.map_nil, handWhile]
    rfl

end

/-! ### Replaying -/

/-- The state after lines that are replayed. -/
def replay (now : Long) (s : NetworkState) (ls : List (IrcLine × Long)) : Except Fault NetworkState :=
  ls.foldlM (fun s l => stateStep s (now, l.1)) s

/-- The lines of a log were parsed, and `replay_line` is stopped by a fault. -/
theorem handWhile_replayLine (now : Long) (s : NetworkState) (ls : List (IrcLine × Long)) :
    (handWhile (replayLine now) (.ok s) ls).2 = replay now s ls ∧
      ∀ s', replay now s ls = .ok s' → (handWhile (replayLine now) (.ok s) ls).1 = true := by
  induction ls generalizing s with
  | nil => exact ⟨rfl, fun _ _ => rfl⟩
  | cons l ls ih =>
      have hline : replayLine now (some l.1) l.2 (.ok s) = match stateStep s (now, l.1) with
          | .ok s' => (true, .ok s')
          | .error e => (false, .error e) := by
        have hbind : ((Except.ok s : Except Fault NetworkState).bind fun s => stateHandleData now s l.1) =
            stateHandleData now s l.1 := rfl
        rw [replayLine, stateStep, hbind]
        cases stateHandleData now s l.1 <;> rfl
      rw [handWhile, hline, replay, List.foldlM_cons]
      cases stateStep s (now, l.1) with
      | error e => exact ⟨rfl, fun _ h => by cases h⟩
      | ok s' => exact ih s'

/-- Lines that are replayed keep the graph. -/
theorem Graph.replay {now : Long} {s s' : NetworkState} {ls : List (IrcLine × Long)} (h : Graph s)
    (hs : replay now s ls = .ok s') : Graph s' := by
  induction ls generalizing s with
  | nil =>
      cases hs
      exact h
  | cons l ls ih =>
      rw [Ctrlproxy.replay, List.foldlM_cons] at hs
      obtain ⟨s₁, hstep, hs⟩ := bind_eq_ok hs
      exact ih (((stateStep_step h _).of_ok hstep).graph h) hs

/-! ### A log with the states that came with its lines -/

/-- A state whose snapshot is read back. -/
structure Restorable (s : NetworkState) : Prop where
  marshallable : Marshallable s
  once : MembersOnce s
  query : ∀ n, s.nickHeap meRef = some n → n.query = true

/-- A line that was kept, and the state that came with it. -/
structure KeptLine where
  dated : IrcLine × Long
  state : NetworkState

/-- A log in use. -/
structure Chronicle where
  nd : LinestackContext
  kept : List KeptLine

inductive ChronicleOp : Type 1 where
  | insert (l : IrcLine) (dir : DataDirection) (now : Long) (state : NetworkState)
  | traverse {H : Type} (lmFrom lmTo : Option ℕ) (handler : TraverseFn H) (userdata : H)
  | getState (now : Long) (toIndex : Option ℕ)

/-- The line that a snapshot was written with, for the `i`-th line. -/
def snapshotOf (i : ℕ) : ℕ := STATE_DUMP_INTERVAL * (i / STATE_DUMP_INTERVAL)

namespace Chronicle

def step (read : LineReader) (junk : Junk) (c : Chronicle) : ChronicleOp → Except Fault Chronicle
  | .insert l dir now state => do
      let (_, nd) ← linestackInsertLine read junk noFailure c.nd l dir now state
      pure ⟨nd, if Accepted l dir then c.kept ++ [KeptLine.mk (l, now) state] else c.kept⟩
  | .traverse lmFrom lmTo handler userdata => do
      let (_, nd, _) ← linestackTraverse read c.nd lmFrom lmTo handler userdata
      pure { c with nd := nd }
  | .getState now toIndex => do
      let (_, nd) ← linestackGetState read junk now c.nd toIndex
      pure { c with nd := nd }

/-- A line comes from the parser, without a line end in its origin, and there is room for it; its state
can be written and read back.  A marker counts lines that are there. -/
def Admits (c : Chronicle) : ChronicleOp → Prop
  | .insert l _ _ state => (∃ d, ircParseLine d = some l) ∧ (∀ o ∈ l.origin, NoEol o) ∧
      c.nd.lineFile.data.length + (ircLineStringNl l).length < 2 ^ 63 ∧ Restorable state
  | .traverse _ _ _ _ => True
  | .getState _ toIndex => ∀ m ∈ toIndex, m ≤ c.nd.count

/-- What the snapshot with the `j`-th line is of: the first was written before any line came. -/
def madeOf (c : Chronicle) (s₀ : NetworkState) (j : ℕ) : NetworkState :=
  if j = 0 then s₀ else ((c.kept[j]?).map KeptLine.state).getD s₀

/-- The lines that are replayed for a marker. -/
def replayed (c : Chronicle) (m : ℕ) : List (IrcLine × Long) :=
  ((c.kept.take m).drop (snapshotOf (m - 1))).map KeptLine.dated

/-- The log holds the lines that were kept, with a snapshot for every thousandth. -/
structure Good (s₀ : NetworkState) (c : Chronicle) : Prop where
  log : ∃ log, Holds c.nd log ∧ c.kept.map KeptLine.dated = log.map Entry.dated ∧
    ∀ i e, log[i]? = some e → e.state = snapshotOf i
  rested : Rested c.nd
  last : c.nd.lastLineWithState = snapshotOf (c.nd.count - 1)
  texts : ∀ j, STATE_DUMP_INTERVAL ∣ j → j = 0 ∨ j < c.nd.count →
    c.nd.states j = some (stateText (c.madeOf s₀ j))
  restorable : ∀ k ∈ c.kept, Restorable k.state

end Chronicle

section
variable {read : LineReader} {junk : Junk} {nd nd' : LinestackContext} {log : List Entry}
  {c c' : Chronicle} {s₀ : NetworkState}

theorem interval_pos : 0 < STATE_DUMP_INTERVAL := by
  rw [STATE_DUMP_INTERVAL]
  decide

/-- Lines behind a snapshot go with it up to the next. -/
theorem snapshotOf_eq {i j : ℕ} (hle : snapshotOf j ≤ i) (hlt : i < snapshotOf j + STATE_DUMP_INTERVAL) :
    snapshotOf i = snapshotOf j := by
  have hdiv : i / STATE_DUMP_INTERVAL = j / STATE_DUMP_INTERVAL := by
    refine Nat.div_eq_of_lt_le ?_ ?_
    · rwa [Nat.mul_comm]
    · rwa [Nat.add_mul, Nat.one_mul, Nat.mul_comm]
  rw [snapshotOf, hdiv]
  rfl

theorem snapshotOf_dvd {j : ℕ} (h : STATE_DUMP_INTERVAL ∣ j) : snapshotOf j = j := Nat.mul_div_cancel' h

theorem dvd_snapshotOf (i : ℕ) : STATE_DUMP_INTERVAL ∣ snapshotOf i := Nat.dvd_mul_right _ _

theorem snapshotOf_le (i : ℕ) : snapshotOf i ≤ i := Nat.mul_div_le i _

/-- A line is stored behind the snapshot that was there, or behind one of the state that comes with
it. -/
theorem storeLine_cases (hread : ReadsLines read) {state : NetworkState} (hs : Marshallable state)
    {l : IrcLine} {now : Long} {r : Bool × LinestackContext}
    (h : storeLine read junk noFailure nd l now state = .ok r) :
    (nd.count < nd.lastLineWithState + STATE_DUMP_INTERVAL ∧ writeLine noFailure nd l now = .ok r) ∨
    (nd.lastLineWithState + STATE_DUMP_INTERVAL ≤ nd.count ∧ ∃ nd₁,
      fileInsertState read junk noFailure nd state nd.count = .ok (true, nd₁) ∧
      nd₁.states = Function.update nd.states nd.count (some (stateText state)) ∧
      writeLine noFailure nd₁ l now = .ok r) := by
  unfold storeLine at h
  obtain ⟨due, hdue, h⟩ := bind_eq_ok h
  have hsum : due = nd.lastLineWithState + STATE_DUMP_INTERVAL := by
    rw [intAdd] at hdue
    split at hdue
    · cases hdue
      rfl
    · cases hdue
  subst hsum
  by_cases hle : nd.lastLineWithState + STATE_DUMP_INTERVAL ≤ nd.count
  · rw [if_pos hle] at h
    obtain ⟨⟨ok, nd₁⟩, hins, h⟩ := bind_eq_ok h
    refine .inr ⟨hle, nd₁, ?_⟩
    have hins' := hins
    rw [fileInsertState, noFailure, if_neg Bool.noConfusion, marshallNetworkState_push hread hs,
      ok_bind] at hins'
    cases hins'
    exact ⟨hins, rfl, h⟩
  · rw [if_neg hle] at h
    exact .inl ⟨Nat.lt_of_not_le hle, h⟩

/-- What the snapshots are of does not change with more lines. -/
theorem Chronicle.madeOf_append (nd nd' : LinestackContext) {j : ℕ} (kept more : List KeptLine) (hj : j = 0 ∨ j < kept.length) :
    Chronicle.madeOf ⟨nd, kept ++ more⟩ s₀ j = Chronicle.madeOf ⟨nd', kept⟩ s₀ j := by
  rw [Chronicle.madeOf, Chronicle.madeOf]
  rcases hj with rfl | hj
  · rw [if_pos rfl, if_pos rfl]
  · dsimp only
    rw [List.getElem?_append_left hj]

theorem Chronicle.madeOf_last (kept : List KeptLine) (k : KeptLine) (hk : kept ≠ []) :
    Chronicle.madeOf ⟨nd, kept ++ [k]⟩ s₀ kept.length = k.state := by
  have hne : kept.length ≠ 0 := fun h => hk (List.length_eq_zero_iff.mp h)
  rw [Chronicle.madeOf, if_neg hne, List.getElem?_concat_length]
  rfl

theorem Chronicle.Good.start (hread : ReadsLines read) {dir : LogDir} (hs₀ : Restorable s₀)
    (h : createLinestack read junk noFailure dir true s₀ = .ok (some nd)) :
    Chronicle.Good s₀ ⟨nd, []⟩ := by
  obtain ⟨nd₁, hnd, hh, hr, hcount⟩ := createLinestack_holds h
  cases hnd
  obtain ⟨nd₀, hopen, h⟩ := bind_eq_ok h
  cases hopen
  obtain ⟨⟨ok, nd₁⟩, hins, h⟩ := bind_eq_ok h
  rw [fileInsertState, noFailure, if_neg Bool.noConfusion,
    marshallNetworkState_push hread hs₀.marshallable, ok_bind] at hins
  cases hins
  cases h
  refine ⟨⟨[], hh, rfl, fun _ _ he => by cases he⟩, hr, ?_, fun j _ hj => ?_, fun _ hk => by cases hk⟩
  · exact (snapshotOf_dvd (Nat.dvd_zero _)).symm
  · rcases hj with rfl | hj
    · rw [Chronicle.madeOf, if_pos rfl]
      dsimp only
      rw [Function.update_self]
      rfl
    · exact absurd hj (Nat.not_lt_zero _)

/-- A line that is stored. -/
theorem Chronicle.Good.stored (hread : ReadsLines read) (hc : c.Good s₀) {l : IrcLine} {now : Long}
    {state : NetworkState} {ok : Bool} (hl : l.Printable) (ho : ∀ o ∈ l.origin, NoEol o)
    (hroom : c.nd.lineFile.data.length + (ircLineStringNl l).length < 2 ^ 63) (hs : Restorable state)
    (h : storeLine read junk noFailure c.nd l now state = .ok (ok, nd')) :
    Chronicle.Good s₀ { nd := nd', kept := c.kept ++ [KeptLine.mk (l, now) state] } := by
  obtain ⟨log, hh, hkept, hstate⟩ := hc.log
  have hlength : c.kept.length = log.length := by
    rw [← List.length_map KeptLine.dated, hkept, List.length_map]
  have hcount : c.nd.count = c.kept.length := hh.count.trans hlength.symm
  have hdated : ∀ nd₁ : LinestackContext, (c.kept ++ [KeptLine.mk (l, now) state]).map KeptLine.dated =
      (log ++ [nd₁.entry l now]).map Entry.dated := by
    intro nd₁
    rw [List.map_append, List.map_append, hkept]
    rfl
  have hentries : ∀ nd₁ : LinestackContext, nd₁.lastLineWithState = snapshotOf c.nd.count →
      ∀ i e, (log ++ [nd₁.entry l now])[i]? = some e → e.state = snapshotOf i := by
    intro nd₁ hlast i e he
    rcases Nat.lt_or_ge i log.length with hi | hi
    · rw [List.getElem?_append_left hi] at he
      exact hstate i e he
    · rw [List.getElem?_append_right hi, List.getElem?_singleton] at he
      split at he
      · next hi' =>
        cases he
        rw [show i = c.nd.count by rw [hh.count]; omega]
        exact hlast
      · cases he
  have hrestorable : ∀ k ∈ c.kept ++ [KeptLine.mk (l, now) state], Restorable k.state := by
    intro k hk
    rcases List.mem_append.mp hk with hk | hk
    · exact hc.restorable k hk
    · rw [List.mem_singleton.mp hk]
      exact hs
  have hlastLe : c.nd.lastLineWithState ≤ c.nd.count := by
    rcases hc.rested.before with hb | hb
    · exact hb.le
    · rw [hb]
      exact Nat.zero_le _
  rcases storeLine_cases hread hs.marshallable h with ⟨hlt, hw⟩ | ⟨hge, nd₁, hins, hstates, hw⟩
  · -- the last snapshot is recent
    have hsnap : snapshotOf c.nd.count = c.nd.lastLineWithState := by
      rw [hc.last] at hlastLe hlt ⊢
      exact snapshotOf_eq hlastLe hlt
    obtain ⟨-, hh', hcount', hlast'⟩ := (writeLine_ensures hh hl ho hroom hlastLe hlt).of_ok hw
    have hsame := writeLine_states.of_ok hw
    dsimp only at hh' hcount' hlast' hsame
    refine ⟨⟨_, hh', hdated _, hentries _ hsnap.symm⟩, ⟨.inl ?_, ?_⟩, ?_, fun j hj hjlt => ?_, hrestorable⟩
    · rw [hlast', hcount']
      exact Nat.lt_succ_of_le hlastLe
    · rw [hlast', hcount']
      exact hlt
    · rw [hlast', hcount', Nat.add_sub_cancel, hsnap]
    · have hjc : j = 0 ∨ j < c.nd.count := by
        rcases hjlt with h0 | hjlt
        · exact .inl h0
        · rw [hcount'] at hjlt
          rcases Nat.lt_succ_iff_lt_or_eq.mp hjlt with hjlt | rfl
          · exact .inr hjlt
          · -- the count is no multiple of the interval, unless there is no line yet
            rw [snapshotOf_dvd hj] at hsnap
            rcases hc.rested.before with hb | hb
            · exact absurd hsnap hb.ne'
            · exact .inl (hsnap.trans hb)
      show nd'.states j = _
      rw [hsame, hc.texts j hj hjc, Chronicle.madeOf_append nd' c.nd c.kept _ (hcount ▸ hjc)]
  · -- a snapshot is due
    have heq : c.nd.count = c.nd.lastLineWithState + STATE_DUMP_INTERVAL :=
      Nat.le_antisymm hc.rested.recent hge
    have hdvd : STATE_DUMP_INTERVAL ∣ c.nd.count := by
      rw [heq, hc.last]
      exact Nat.dvd_add (dvd_snapshotOf _) (Nat.dvd_refl _)
    obtain ⟨-, hh₁, hfile, hcount₁, hlast₁⟩ := (fileInsertState_ensures hh hdvd).of_ok hins
    dsimp only at hh₁ hfile hcount₁ hlast₁
    obtain ⟨-, hh', hcount', hlast'⟩ := (writeLine_ensures hh₁ hl ho (hfile ▸ hroom)
      (hlast₁.trans hcount₁.symm).le (by rw [hcount₁, hlast₁]; exact Nat.lt_add_of_pos_right interval_pos)).of_ok
        hw
    have hsame := writeLine_states.of_ok hw
    dsimp only at hh' hcount' hlast' hsame
    rw [hlast₁] at hlast'
    rw [hcount₁] at hcount'
    refine ⟨⟨_, hh', hdated _, hentries _ (hlast₁.trans (snapshotOf_dvd hdvd).symm)⟩, ⟨.inl ?_, ?_⟩, ?_,
      fun j hj hjlt => ?_, hrestorable⟩
    · rw [hlast', hcount']
      exact Nat.lt_succ_self _
    · rw [hlast', hcount']
      exact Nat.add_le_add_left interval_pos _
    · rw [hlast', hcount', Nat.add_sub_cancel, snapshotOf_dvd hdvd]
    · show nd'.states j = _
      rw [hsame, hstates]
      by_cases hjc : j = c.nd.count
      · have hne : c.kept ≠ [] := by
          intro hnil
          rw [hnil, List.length_nil, heq] at hcount
          exact absurd hcount (Nat.add_pos_right _ interval_pos).ne'
        rw [hjc, Function.update_self, hcount, Chronicle.madeOf_last _ _ hne]
      · have hjlt' : j = 0 ∨ j < c.nd.count := by
          refine hjlt.imp_right fun hjlt => ?_
          rw [hcount'] at hjlt
          exact lt_of_le_of_ne (Nat.lt_succ_iff.mp hjlt) hjc
        rw [Function.update_of_ne hjc, hc.texts j hj hjlt',
          Chronicle.madeOf_append nd' c.nd c.kept _ (hcount ▸ hjlt')]

theorem Holds.atEnds (h : Holds nd log) : AtEnds nd := ⟨h.lines_end, h.index_end⟩

/-- Every operation. -/
theorem Chronicle.Good.step (hread : ReadsLines read) (hc : c.Good s₀) {op : ChronicleOp}
    (hop : c.Admits op) : Ensures (c.step read junk op) (Chronicle.Good s₀) fun _ => True := by
  obtain ⟨log, hh, -⟩ := hc.log
  cases hstep : c.step read junk op with
  | error e => trivial
  | ok c' =>
      show c'.Good s₀
      cases op with
      | insert l dir now state =>
          obtain ⟨⟨d, hd⟩, ho, hroom, hs⟩ := hop
          have hl := ircParseLine_printable hd
          obtain ⟨⟨ok, nd⟩, hins, h⟩ := bind_eq_ok hstep
          cases h
          by_cases ha : Accepted l dir
          · rw [if_pos ha]
            rw [linestackInsertLine_accepted ha hl.args_noEol] at hins
            exact hc.stored hread hl ho hroom hs hins
          · rw [if_neg ha]
            rw [linestackInsertLine_rejected ha] at hins
            cases hins
            exact hc
      | traverse lmFrom lmTo handler u =>
          obtain ⟨⟨ret, nd, u'⟩, htraverse, h⟩ := bind_eq_ok hstep
          cases h
          obtain rfl := linestackTraverse_ok hh.atEnds htraverse
          exact hc
      | getState now toIndex =>
          obtain ⟨⟨st, nd⟩, hget, h⟩ := bind_eq_ok hstep
          cases h
          obtain rfl := linestackGetState_ok hh.atEnds (hh.index_length.trans (by rw [hh.count]))
            hh.count_size hop hget
          exact hc

/-- The snapshot for a marker is told by the record of the line before it. -/
theorem Holds.stateIndexOf_some (h : Holds nd log) {m : ℕ} {e : Entry} (he : log[m]? = some e)
    (hstate : e.state < 2 ^ 64) : stateIndexOf nd (some (m + 1)) = .ok (some e.state, nd) := by
  obtain ⟨hm, -⟩ := List.getElem?_eq_some_iff.mp he
  have hsmall : m < 2 ^ 31 := hm.trans (h.count ▸ h.count_size)
  have hoffset : ((m + 1 + (2 ^ 64 - 1)) * INDEX_RECORD_SIZE + 16) % 2 ^ 64 =
      m * INDEX_RECORD_SIZE + 16 := by
    rw [INDEX_RECORD_SIZE]
    omega
  have hlow : ¬ 2 ^ 63 ≤ m * INDEX_RECORD_SIZE + 16 := by
    rw [INDEX_RECORD_SIZE]
    omega
  have hrest : (nd.indexFile.seek (m * INDEX_RECORD_SIZE + 16)).rest =
      toOctets 8 e.state ++ (log.drop (m + 1)).flatMap Entry.record := by
    have htime : (timeOctets e.time).length = 8 := length_toOctets _ _
    rw [File.rest, File.seek_data, File.seek_pos, ← List.drop_drop, h.index_drop he, Entry.record,
      List.append_assoc, List.append_assoc, ← List.append_assoc, List.drop_left']
    rw [List.length_append, length_toOctets, htime]
  have hread := readNumber_append (by simp [toOctets]) hrest
  rw [length_toOctets, ofOctets_toOctets_eight hstate] at hread
  rw [stateIndexOf]
  dsimp only
  rw [hoffset, if_neg hlow, if_neg (by rw [hrest]; simp [toOctets]), hread, ok_bind]
  dsimp only
  rw [h.index_end.seekEnd_eq]
  · rfl
  · exact File.seek_data _ _

/-- Which snapshot a state begins with. -/
theorem Chronicle.Good.stateIndexOf (hc : c.Good s₀) {toIndex : Option ℕ}
    (hm : ∀ m ∈ toIndex, 0 < m ∧ m ≤ c.kept.length) :
    stateIndexOf c.nd toIndex = .ok (some (snapshotOf (toIndex.getD c.kept.length - 1)), c.nd) := by
  obtain ⟨log, hh, hkept, hstate⟩ := hc.log
  have hlength : c.kept.length = log.length := by
    rw [← List.length_map KeptLine.dated, hkept, List.length_map]
  cases toIndex with
  | none =>
      show Except.ok (some c.nd.lastLineWithState, c.nd) = _
      rw [hc.last, hh.count, ← hlength]
      rfl
  | some m =>
      obtain ⟨hpos, hle⟩ := hm m rfl
      obtain ⟨k, rfl⟩ := Nat.exists_eq_succ_of_ne_zero hpos.ne'
      have hk : k < log.length := hlength ▸ hle
      have he : log[k]? = some log[k] := List.getElem?_eq_getElem hk
      have hsnap := hstate k _ he
      have hlt : log[k].state < 2 ^ 64 := by
        have := snapshotOf_le k
        have := hh.count
        have := hh.count_size
        omega
      rw [hh.stateIndexOf_some he hlt, hsnap]
      rfl

/-- The state at a marker. -/
theorem Chronicle.Good.getState (hread : ReadsCrLf read) (hread' : ReadsLines read) (hs₀ : Restorable s₀)
    (hc : c.Good s₀) (now : Long) {toIndex : Option ℕ}
    (hm : ∀ m ∈ toIndex, 0 < m ∧ m ≤ c.kept.length) : ∃ st,
      Restored (c.madeOf s₀ (snapshotOf (toIndex.getD c.kept.length - 1))) st ∧ Graph st ∧
      linestackGetState read junk now c.nd toIndex = (do
        let s ← replay now st (c.replayed (toIndex.getD c.kept.length))
        if nameOf s meRef = none then .error .assertion else pure (some s, c.nd)) := by
  obtain ⟨log, hh, hkept, -⟩ := hc.log
  have hlength : c.kept.length = log.length := by
    rw [← List.length_map KeptLine.dated, hkept, List.length_map]
  obtain ⟨m, hmdef⟩ : ∃ m, m = toIndex.getD c.kept.length := ⟨_, rfl⟩
  have hmle : m ≤ c.kept.length := by
    rw [hmdef]
    cases toIndex with
    | none => exact le_rfl
    | some m => exact (hm m rfl).2
  rw [← hmdef]
  -- the snapshot is read back
  have htext : c.nd.states (snapshotOf (m - 1)) = some (stateText (c.madeOf s₀ (snapshotOf (m - 1)))) := by
    refine hc.texts _ (dvd_snapshotOf _) ?_
    rcases Nat.eq_zero_or_pos m with rfl | hpos
    · exact .inl (snapshotOf_dvd (Nat.dvd_zero _))
    · refine .inr ((snapshotOf_le _).trans_lt ?_)
      rw [hh.count, ← hlength]
      exact (Nat.sub_lt hpos Nat.one_pos).trans_le hmle
  have hrestorable : Restorable (c.madeOf s₀ (snapshotOf (m - 1))) := by
    rw [Chronicle.madeOf]
    split
    · exact hs₀
    · cases hk : c.kept[snapshotOf (m - 1)]? with
      | none => exact hs₀
      | some k => exact hc.restorable k (List.mem_of_getElem? hk)
  obtain ⟨st, hpull, hrestored, hgraph⟩ : ∃ st, marshallNetworkState read junk .pull
      (stateText (c.madeOf s₀ (snapshotOf (m - 1))) ++ []) (networkStateInit [] [] []) =
        .ok (true, [], st) ∧ Restored (c.madeOf s₀ (snapshotOf (m - 1))) st ∧ Graph (asked st) :=
    marshallNetworkState_graph hread' hrestorable.marshallable hrestorable.once []
  rw [List.append_nil] at hpull
  have hst : Graph st := by
    obtain ⟨n, n', hn, hn', e⟩ := hrestored.me.fields
    have hasked : asked st = st := asked_eq fun x hx => by
      rw [hn'] at hx
      cases hx
      rw [e]
      exact hrestorable.query n hn
    rwa [hasked] at hgraph
  refine ⟨st, hrestored, hst, ?_⟩
  -- the lines are replayed
  have hrange : rangeOf (log.map Entry.dated) (some (snapshotOf (m - 1))) toIndex = c.replayed m := by
    rw [rangeOf, Chronicle.replayed, ← hkept, List.length_map, ← hmdef, Option.getD_some, List.drop_take,
      List.map_take, List.map_drop]
  have htraverse := linestackTraverse_while (replayLine now) hread hh (.refl c.nd)
    (some (snapshotOf (m - 1))) (fun k hk => hlength ▸ (hm k hk).2 : ∀ k ∈ toIndex, k ≤ log.length)
    (.ok st)
  rw [hrange] at htraverse
  obtain ⟨hlast, hon⟩ := handWhile_replayLine now st (c.replayed m)
  rw [hlast] at htraverse
  rw [linestackGetState, hc.stateIndexOf hm, ← hmdef, ok_bind]
  dsimp only
  rw [htext]
  dsimp only
  rw [hpull, ok_bind]
  dsimp only
  rw [if_neg Bool.noConfusion, linestackReplay, htraverse, ok_bind]
  dsimp only
  cases hreplay : replay now st (c.replayed m) with
  | error e => rfl
  | ok s =>
      obtain ⟨me, hme, -⟩ := (hst.replay hreplay).nick_live meRef (.inl rfl)
      have hquery := (hst.replay hreplay).me_query me hme
      have hnick : s.nick meRef = .ok me := by
        rw [NetworkState.nick, hme]
      rw [ok_bind, ok_bind, hon s hreplay, pure_eq_ok, ok_bind]
      dsimp only
      rw [if_neg Bool.noConfusion, hnick, ok_bind, nameOf_eq hme]
      simp [hquery]

end

/-! ### A log with one line -/

end Ctrlproxy
