import Ctrlproxy.Linestack.Fidelity
import Ctrlproxy.Linestack.Restore

/-!
# Linestack — reopening a log

`linestack_get_state` and the functions it replays lines with, and a directory over several runs of
the program: lines are inserted, read and replayed, and the log is opened again, in any order
(`stackStep`).

A log that is opened again counts the lines in its index, and takes that count for the place of its
last snapshot; the snapshot itself is written at 0.  No snapshot was ever written at the count of
the lines (`Ahead.snapshots`), so the state of a log that is opened again is not found
(`reopened_never`).
-/

namespace Ctrlproxy
open Outcome

/-! ### The state of a log -/

/-- `replay_line`; a fault in `state_handle_data` ends the program. -/
def replayLine (now : Long) : TraverseFn (Except Fault NetworkState) := fun l _ st =>
  match l, st with
  | none, st => (true, st)
  | some l, st =>
      match st.bind fun s => stateHandleData now s l with
      | .ok (_, s) => (true, .ok s)
      | .error e => (false, .error e)

/-- `linestack_replay`. -/
def linestackReplay (read : LineReader) (now : Long) (ctx : LinestackContext) (mf mt : Option ℕ)
    (st : NetworkState) : Except Fault (Bool × LinestackContext × NetworkState) := do
  let (ret, ctx, st) ← linestackTraverse read ctx mf mt (replayLine now) (.ok st)
  let st ← st
  pure (ret, ctx, st)

/-- The first part of `linestack_get_state`: which snapshot to begin with.  What the offset is
computed from is 64 bits wide, and an offset has a sign. -/
def stateIndexOf (nd : LinestackContext) :
    Option ℕ → Except Fault (Option ℕ × LinestackContext)
  | none => .ok (some nd.lastLineWithState, nd)
  | some m =>
      let offset := ((m + (2 ^ 64 - 1)) * INDEX_RECORD_SIZE + 16) % 2 ^ 64
      if 2 ^ 63 ≤ offset then .ok (none, nd)
      else
        let index := nd.indexFile.seek offset
        -- at the end of the file there is no going back
        if index.rest = [] then .ok (none, { nd with indexFile := index })
        else do
          let (stateIndex, index) ← readNumber index 8
          pure (some stateIndex, { nd with indexFile := index.seekEnd })

/-- `linestack_get_state`: `none` is `NULL`. -/
def linestackGetState (read : LineReader) (junk : Junk) (now : Long) (nd : LinestackContext)
    (toIndex : Option ℕ) : Except Fault (Option NetworkState × LinestackContext) := do
  let (stateIndex, nd) ← stateIndexOf nd toIndex
  match stateIndex with
  | none => pure (none, nd)
  | some stateIndex =>
      match nd.states stateIndex with
      | none => pure (none, nd)
      | some text => do
          let (ok, _, ret) ←
            marshallNetworkState read junk .pull text (networkStateInit [] [] [])
          if ok = false then pure (none, nd)
          else do
            let (ok, nd, ret) ← linestackReplay read now nd (some stateIndex) toIndex ret
            if ok = false then pure (none, nd)
            else do
              let me ← ret.nick meRef
              if me.nick = none ∨ me.query = false then .error .assertion
              else pure (some ret, nd)

/-! ### A directory over several runs -/

/-- The directory that a log leaves behind. -/
def LinestackContext.dir (nd : LinestackContext) : LogDir :=
  ⟨nd.lineFile.data, nd.indexFile.data, nd.states⟩

/-- What is done with a log, and with the directory it leaves behind. -/
inductive StackOp : Type 1 where
  | insert (l : IrcLine) (dir : DataDirection) (now : Long) (state : NetworkState)
  | traverse {H : Type} (lmFrom lmTo : Option ℕ) (handler : TraverseFn H) (userdata : H)
  | getState (toIndex : Option ℕ)
  | reopen (state : NetworkState)

/-- One operation. -/
def stackStep (read : LineReader) (junk : Junk) (now : Long) (nd : LinestackContext) :
    StackOp → Except Fault LinestackContext
  | .insert l dir now state => do
      let (_, nd) ← linestackInsertLine read junk noFailure nd l dir now state
      pure nd
  | .traverse lmFrom lmTo handler userdata => do
      let (_, nd, _) ← linestackTraverse read nd lmFrom lmTo handler userdata
      pure nd
  | .getState toIndex => do
      let (_, nd) ← linestackGetState read junk now nd toIndex
      pure nd
  | .reopen state => do
      let nd' ← createLinestack read junk noFailure nd.dir false state
      pure (nd'.getD nd)

/-- The file of lines has room for a line; a marker counts lines that are there. -/
def StackOp.Admitted (nd : LinestackContext) : StackOp → Prop
  | .insert l _ _ _ => nd.lineFile.data.length + (ircLineStringNl l).length < 2 ^ 63
  | .traverse _ _ _ _ => True
  | .getState toIndex => ∀ m ∈ toIndex, m ≤ nd.count
  | .reopen _ => True

/-- A line from the server reaches the state, and then the log. -/
def receivedAndLogged (read : LineReader) (junk : Junk) (now : Long)
    (r : LinestackContext × NetworkState) (l : IrcLine) :
    Except Fault (LinestackContext × NetworkState) := do
  let (_, s) ← stateHandleData now r.2 l
  let (_, nd) ← linestackInsertLine read junk noFailure r.1 l .fromServer now s
  pure (nd, s)

/-- What a log is to give that is opened again with a state: that state; at an old marker what it
gave there before; and at a new marker the state after the lines that came since. -/
structure Continues (read : LineReader) (junk : Junk) (now : Long) (nd nd' : LinestackContext)
    (s₁ : NetworkState) : Prop where
  current : ∃ st nd'', linestackGetState read junk now nd' none = .ok (some st, nd'') ∧
    Restored s₁ st
  old : ∀ m, 0 < m → m ≤ nd.count →
    (linestackGetState read junk now nd' (some m)).map Prod.fst =
      (linestackGetState read junk now nd (some m)).map Prod.fst
  new : ∀ ls ≠ [], (∀ l ∈ ls, Accepted l .fromServer) → ∀ nd'' s,
    ls.foldlM (receivedAndLogged read junk now) (nd', s₁) = .ok (nd'', s) →
    ∃ st nd₃, linestackGetState read junk now nd'' (some (linestackGetMarker nd'')) =
      .ok (some st, nd₃) ∧ Restored s st

/-- The directory of a log is opened again, and the log continues. -/
def ReopensAs (read : LineReader) (junk : Junk) (now : Long) (nd : LinestackContext)
    (s₁ : NetworkState) : Prop :=
  ∃ nd', createLinestack read junk noFailure nd.dir false s₁ = .ok (some nd') ∧
    Continues read junk now nd nd' s₁

/-! ### Reading moves the files only -/

section
variable {read : LineReader} {junk : Junk} {now : Long} {nd nd' nd'' : LinestackContext}

theorem readNumber_data {f f' : File Octet} {k v : ℕ} (h : readNumber f k = .ok (v, f')) :
    f'.data = f.data := by
  rw [readNumber] at h
  dsimp only at h
  split at h
  · cases h
  · split at h
    · cases h
    · cases h
      rfl

theorem linestackReadEntry_moved {i : ℕ} {l : Option IrcLine} {t : Long} (hm : Moved nd nd')
    (h : linestackReadEntry read nd' i = .ok (l, t, nd'')) : Moved nd nd'' := by
  obtain ⟨⟨offset, index₁⟩, h₁, h⟩ := bind_eq_ok h
  obtain ⟨⟨time, index₂⟩, h₂, h⟩ := bind_eq_ok h
  dsimp only at h
  split at h
  · cases h
  · cases h
    have hindex : index₂.data = nd'.indexFile.data := by
      rw [readNumber_data h₂, readNumber_data h₁, File.seek_data]
    exact ⟨hm.lines, hindex.trans hm.index, hm.states, hm.count, hm.last⟩

theorem traverseLoop_ok_moved {H : Type} {handler : TraverseFn H} {k i : ℕ} {u u' : H} {ret : Bool}
    (hm : Moved nd nd') (h : traverseLoop read handler k i nd' u = .ok (ret, nd'', u')) :
    Moved nd nd'' := by
  induction k generalizing i nd' u with
  | zero =>
      cases h
      exact hm
  | succ k ih =>
      obtain ⟨⟨l, t, nd₁⟩, hentry, h⟩ := bind_eq_ok h
      have hm₁ := linestackReadEntry_moved hm hentry
      dsimp only at h
      split at h
      · exact ih hm₁ h
      · cases h
        exact hm₁

/-- The files of a log are at their ends. -/
structure AtEnds (nd : LinestackContext) : Prop where
  lines : nd.lineFile.AtEnd
  index : nd.indexFile.AtEnd

/-- A traversal that returns leaves the log as it was. -/
theorem linestackTraverse_ok {H : Type} {handler : TraverseFn H} {lmFrom lmTo : Option ℕ}
    {u u' : H} {ret : Bool} (he : AtEnds nd)
    (h : linestackTraverse read nd lmFrom lmTo handler u = .ok (ret, nd', u')) : nd' = nd := by
  obtain ⟨⟨ret', nd₁, u₁⟩, hloop, h⟩ := bind_eq_ok h
  cases h
  exact (traverseLoop_ok_moved (.refl nd) hloop).seekEnd he.lines he.index

/-- The number of the snapshot for a marker is read at the end of the record before it. -/
theorem stateIndexOf_ok {toIndex : Option ℕ} {i : Option ℕ} (he : AtEnds nd)
    (hsize : nd.indexFile.data.length = nd.count * INDEX_RECORD_SIZE) (hcount : nd.count < 2 ^ 31)
    (hm : ∀ m ∈ toIndex, m ≤ nd.count) (h : stateIndexOf nd toIndex = .ok (i, nd')) :
    nd' = nd := by
  cases toIndex with
  | none =>
      cases h
      rfl
  | some m =>
      have hle : m ≤ nd.count := hm m rfl
      rw [stateIndexOf] at h
      dsimp only at h
      split at h
      · cases h
        rfl
      next hlow =>
      split at h
      · next hrest =>
        -- the record before a marker of the log is in the index
        exfalso
        have hlen := List.drop_eq_nil_iff.mp hrest
        rw [File.seek_pos, File.seek_data, hsize, INDEX_RECORD_SIZE] at hlen
        rw [INDEX_RECORD_SIZE] at hlow
        cases m with
        | zero => omega
        | succ m => omega
      · obtain ⟨⟨v, index⟩, hv, h⟩ := bind_eq_ok h
        cases h
        have hdata : index.data = nd.indexFile.data := by
          rw [readNumber_data hv, File.seek_data]
        rw [he.index.seekEnd_eq hdata]

/-- Asking for a state leaves the log as it was. -/
theorem linestackGetState_ok {toIndex : Option ℕ} {st : Option NetworkState} (he : AtEnds nd)
    (hsize : nd.indexFile.data.length = nd.count * INDEX_RECORD_SIZE) (hcount : nd.count < 2 ^ 31)
    (hm : ∀ m ∈ toIndex, m ≤ nd.count)
    (h : linestackGetState read junk now nd toIndex = .ok (st, nd')) : nd' = nd := by
  obtain ⟨⟨i, nd₁⟩, hi, hget⟩ := bind_eq_ok h
  obtain rfl := stateIndexOf_ok he hsize hcount hm hi
  dsimp only at hget
  split at hget
  · cases hget
    rfl
  split at hget
  · cases hget
    rfl
  obtain ⟨⟨ok, rest, ret⟩, -, hpulled⟩ := bind_eq_ok hget
  dsimp only at hpulled
  split at hpulled
  · cases hpulled
    rfl
  obtain ⟨⟨ok', nd₂, ret'⟩, hreplay, hreplayed⟩ := bind_eq_ok hpulled
  obtain ⟨⟨ok₁, nd₃, st₁⟩, htraverse, hend⟩ := bind_eq_ok hreplay
  obtain ⟨st₂, -, hst⟩ := bind_eq_ok hend
  cases hst
  obtain rfl := linestackTraverse_ok he htraverse
  dsimp only at hreplayed
  split at hreplayed
  · cases hreplayed
    rfl
  obtain ⟨me, -, hme⟩ := bind_eq_ok hreplayed
  split at hme
  · cases hme
  · cases hme
    rfl

/-! ### Snapshots and lines -/

/-- Behind every snapshot but the first there is a line; the records of the index are counted. -/
structure Ahead (nd : LinestackContext) : Prop where
  ends : AtEnds nd
  snapshots : ∀ j, nd.states j ≠ none → j = 0 ∨ j < nd.count
  index_size : nd.indexFile.data.length = nd.count * INDEX_RECORD_SIZE
  count_size : nd.count < 2 ^ 31

/-- The state at the count of the lines was never written. -/
theorem Ahead.none_at_count (h : Ahead nd) (hn : 0 < nd.count) : nd.states nd.count = none := by
  by_contra hsome
  rcases h.snapshots _ hsome with h0 | hlt
  · exact hn.ne' h0
  · exact Nat.lt_irrefl _ hlt

/-- A snapshot is written, and taken for the last. -/
theorem fileInsertState_ok {state : NetworkState} {id : ℕ} {ok : Bool}
    (h : fileInsertState read junk noFailure nd state id = .ok (ok, nd')) : ok = true ∧ ∃ text,
      nd' = { nd with lastLineWithState := nd.count,
                      states := Function.update nd.states id (some text) } := by
  rw [fileInsertState, noFailure, if_neg Bool.noConfusion] at h
  obtain ⟨⟨ret, text, s'⟩, -, h⟩ := bind_eq_ok h
  cases h
  exact ⟨rfl, text, rfl⟩

theorem update_ne_none {α : Type} {f : ℕ → Option α} {i j : ℕ} {v : Option α}
    (h : Function.update f i v j ≠ none) : j = i ∨ f j ≠ none := by
  by_cases hj : j = i
  · exact .inl hj
  · rw [Function.update_of_ne hj] at h
    exact .inr h

/-- A new log. -/
theorem Ahead.created {dir : LogDir} {state : NetworkState}
    (h : createLinestack read junk noFailure dir true state = .ok (some nd)) : Ahead nd := by
  obtain ⟨nd₀, hopen, h⟩ := bind_eq_ok h
  cases hopen
  obtain ⟨⟨ok, nd₁⟩, hins, hnd⟩ := bind_eq_ok h
  obtain ⟨rfl, text, rfl⟩ := fileInsertState_ok hins
  cases hnd
  refine ⟨⟨rfl, rfl⟩, fun j hj => ?_, rfl, (by decide : 0 < 2 ^ 31)⟩
  rcases update_ne_none hj with rfl | hj
  · exact .inl rfl
  · exact absurd rfl hj

/-- A log that is opened again has its lines, and takes the snapshot that it wrote at 0 for one at
their count. -/
structure Reopened (nd nd' : LinestackContext) : Prop where
  ahead : Ahead nd'
  lines : nd'.lineFile.data = nd.lineFile.data
  index : nd'.indexFile.data = nd.indexFile.data
  count : nd'.count = nd.count
  last : nd'.lastLineWithState = nd.count
  states : ∀ j ≠ 0, nd'.states j = nd.states j

theorem Ahead.reopened {state : NetworkState} {r : Option LinestackContext} (h : Ahead nd)
    (hr : createLinestack read junk noFailure nd.dir false state = .ok r) :
    ∃ nd', r = some nd' ∧ Reopened nd nd' := by
  obtain ⟨nd₀, hopen, hr⟩ := bind_eq_ok hr
  have hcount : nd.dir.index.length / INDEX_RECORD_SIZE = nd.count := by
    rw [LinestackContext.dir, h.index_size, INDEX_RECORD_SIZE]
    exact Nat.mul_div_cancel _ (by decide)
  rw [openContext, if_neg Bool.noConfusion, hcount, intAdd_eq (by simpa using h.count_size),
    ok_bind] at hopen
  cases hopen
  obtain ⟨⟨ok, nd₁⟩, hins, hnd⟩ := bind_eq_ok hr
  obtain ⟨rfl, text, rfl⟩ := fileInsertState_ok hins
  cases hnd
  refine ⟨_, rfl, ⟨⟨rfl, rfl⟩, fun j hj => ?_, h.index_size, h.count_size⟩, rfl, rfl, rfl, rfl, ?_⟩
  · rcases update_ne_none hj with rfl | hj
    · exact .inl rfl
    · exact h.snapshots j hj
  · intro j hj
    exact Function.update_of_ne hj _ _

/-- A line is written, when no snapshot is behind it. -/
theorem writeLine_ahead {l : IrcLine} {t : Long} (he : AtEnds nd)
    (hsnapshots : ∀ j, nd.states j ≠ none → j = 0 ∨ j ≤ nd.count)
    (hsize : nd.indexFile.data.length = nd.count * INDEX_RECORD_SIZE) (hcount : nd.count < 2 ^ 31)
    (hroom : nd.lineFile.data.length + (ircLineStringNl l).length < 2 ^ 63) :
    Ensures (writeLine noFailure nd l t) (fun r => Ahead r.2) (fun _ => True) := by
  have hsize' := hsize
  rw [INDEX_RECORD_SIZE] at hsize'
  obtain ⟨index, hwrite, hdata, hend⟩ := writeIndexEntry_atEnd he.index
    (by rw [hsize', INDEX_RECORD_SIZE]; omega) nd.lineFile.pos t nd.lastLineWithState
  have hpos : nd.lineFile.pos = nd.lineFile.data.length := he.lines
  unfold writeLine
  rw [hwrite]
  dsimp only
  rw [if_neg Bool.noConfusion, writeChars_eq (by rw [hpos]; exact hroom)]
  dsimp only
  by_cases hc : nd.count + 1 < 2 ^ 31
  · rw [intAdd_eq hc, ok_bind]
    refine ⟨⟨he.lines.write _, hend⟩, fun j hj => ?_, ?_, hc⟩
    · exact (hsnapshots j hj).imp_right Nat.lt_succ_of_le
    · dsimp only
      rw [hdata, List.length_append, hsize]
      simp only [List.length_append, length_toOctets, timeOctets, INDEX_RECORD_SIZE]
      omega
  · rw [intAdd, if_neg hc]
    trivial

/-- `linestack_insert_line` drops a line, stops, or stores it. -/
theorem linestackInsertLine_cases (read : LineReader) (junk : Junk) (fails : WriteSite → Bool)
    (nd : LinestackContext) (l : IrcLine) (dir : DataDirection) (t : Long) (state : NetworkState) :
    linestackInsertLine read junk fails nd l dir t state = .ok (true, nd) ∨
    linestackInsertLine read junk fails nd l dir t state = .error .assertion ∨
    linestackInsertLine read junk fails nd l dir t state =
      storeLine read junk fails nd l t state := by
  unfold linestackInsertLine
  dsimp only
  split
  · exact .inl rfl
  split
  · exact .inl rfl
  split
  · exact .inl rfl
  split
  · exact .inl rfl
  split
  · exact .inr (.inl rfl)
  · exact .inr (.inr rfl)

/-- Inserting keeps a line behind every snapshot. -/
theorem Ahead.inserted {l : IrcLine} {dir : DataDirection} {t : Long} {state : NetworkState}
    (h : Ahead nd) (hroom : nd.lineFile.data.length + (ircLineStringNl l).length < 2 ^ 63) :
    Ensures (linestackInsertLine read junk noFailure nd l dir t state) (fun r => Ahead r.2)
      (fun _ => True) := by
  rcases linestackInsertLine_cases read junk noFailure nd l dir t state with hd | hs | hw
  · rw [hd]
    exact h
  · rw [hs]
    trivial
  rw [hw, storeLine]
  have hle : ∀ j, nd.states j ≠ none → j = 0 ∨ j ≤ nd.count :=
    fun j hj => (h.snapshots j hj).imp_right Nat.le_of_lt
  cases intAdd nd.lastLineWithState STATE_DUMP_INTERVAL with
  | error e => trivial
  | ok due =>
      rw [ok_bind]
      by_cases hdue : due ≤ nd.count
      · rw [if_pos hdue]
        cases hins : fileInsertState read junk noFailure nd state nd.count with
        | error e => trivial
        | ok r =>
            obtain ⟨ok, nd₁⟩ := r
            obtain ⟨rfl, text, rfl⟩ := fileInsertState_ok hins
            rw [ok_bind]
            refine writeLine_ahead ⟨h.ends.lines, h.ends.index⟩ (fun j hj => ?_) h.index_size
              h.count_size hroom
            rcases update_ne_none hj with rfl | hj
            · exact .inr le_rfl
            · exact hle j hj
      · rw [if_neg hdue]
        exact writeLine_ahead h.ends hle h.index_size h.count_size hroom

/-- Every operation keeps a line behind every snapshot. -/
theorem Ahead.step {op : StackOp} (h : Ahead nd) (hop : op.Admitted nd) :
    Ensures (stackStep read junk now nd op) Ahead (fun _ => True) := by
  cases hstep : stackStep read junk now nd op with
  | error e => trivial
  | ok nd' =>
      cases op with
      | insert l dir t state =>
          obtain ⟨⟨ok, nd₁⟩, hins, hnd⟩ := bind_eq_ok hstep
          cases hnd
          exact (h.inserted hop).of_ok hins
      | traverse lmFrom lmTo handler userdata =>
          obtain ⟨⟨ret, nd₁, u⟩, htraverse, hnd⟩ := bind_eq_ok hstep
          cases hnd
          exact (linestackTraverse_ok h.ends htraverse).symm ▸ h
      | getState toIndex =>
          obtain ⟨⟨st, nd₁⟩, hget, hnd⟩ := bind_eq_ok hstep
          cases hnd
          exact (linestackGetState_ok h.ends h.index_size h.count_size hop hget).symm ▸ h
      | reopen state =>
          obtain ⟨r, hr, hnd⟩ := bind_eq_ok hstep
          cases hnd
          obtain ⟨nd₁, rfl, hre⟩ := h.reopened hr
          exact hre.ahead

theorem Ahead.of_reach {dir : LogDir} {state : NetworkState} {nd₀ : LinestackContext}
    (hnew : createLinestack read junk noFailure dir true state = .ok (some nd₀))
    (h : Reach (stackStep read junk now) StackOp.Admitted nd₀ nd) : Ahead nd :=
  h.invariant (Ahead.created hnew) fun _ _ hnd hop => hnd.step hop

/-! ### The state that is not found -/

/-- Opened again, a log with lines has no current state. -/
theorem Reopened.current_missing (h : Reopened nd nd') (hn : 0 < nd.count) :
    linestackGetState read junk now nd' none = .ok (none, nd') := by
  have hmissing : nd'.states nd'.lastLineWithState = none := by
    rw [h.last, ← h.count]
    exact h.ahead.none_at_count (h.count ▸ hn)
  unfold linestackGetState
  rw [stateIndexOf, ok_bind]
  dsimp only
  rw [hmissing]
  rfl

theorem Ahead.not_reopensAs {s₁ : NetworkState} (h : Ahead nd) (hn : 0 < nd.count) :
    ¬ReopensAs read junk now nd s₁ := by
  rintro ⟨nd', hopen, hcontinues⟩
  obtain ⟨nd₁, hnd, hre⟩ := h.reopened hopen
  cases hnd
  obtain ⟨st, nd'', hget, -⟩ := hcontinues.current
  rw [hre.current_missing hn] at hget
  cases hget

/-- **A log does not go on when it is opened again.** However a log came about, once it has a line
it has no current state after it was opened again, with whatever state. -/
theorem reopened_never {dir : LogDir} {state s₁ : NetworkState} {nd₀ : LinestackContext}
    (hnew : createLinestack read junk noFailure dir true state = .ok (some nd₀))
    (h : Reach (stackStep read junk now) StackOp.Admitted nd₀ nd) (hn : 0 < nd.count) :
    ¬ReopensAs read junk now nd s₁ :=
  (Ahead.of_reach hnew h).not_reopensAs hn

end

/-- A log with one line. -/
theorem nick_logged : ∃ nd₀ nd, createLinestack readToCrLf zeroes noFailure ⟨[], [], fun _ => none⟩
      true freshState = .ok (some nd₀) ∧
    Reach (stackStep readToCrLf zeroes long0) StackOp.Admitted nd₀ nd ∧ nd.count = 1 := by
  obtain ⟨nd₀, hnew, hgood⟩ := freshStore
  obtain ⟨hop, s', hstep, hgood', hacc, -⟩ := insertNick_step (k := 0) hgood rfl (by decide)
  obtain ⟨⟨ok, nd⟩, hins, hs'⟩ := bind_eq_ok hstep
  cases hs'
  refine ⟨nd₀, nd, hnew, .step (i := .insert nickLine .fromServer long0 freshState) .refl hop.2.2 ?_,
    ?_⟩
  · rw [stackStep]
    exact congrArg (· >>= fun r => pure r.2) hins
  · obtain ⟨⟨log, hh, hlog⟩, -, -⟩ := hgood'
    have hlength := congrArg List.length (hlog.symm.trans hacc)
    rw [List.length_map] at hlength
    exact hh.count.trans hlength

/-- The log with one line, opened again. -/
theorem reopened_never_nick :
    ∃ nd, 0 < nd.count ∧ ¬ReopensAs readToCrLf zeroes long0 nd freshState := by
  obtain ⟨nd₀, nd, hnew, h, hcount⟩ := nick_logged
  exact ⟨nd, hcount ▸ Nat.one_pos, reopened_never hnew h (hcount ▸ Nat.one_pos)⟩

/-- A log of one line is opened again, and its state is `NULL`. -/
theorem reopened_state_null : ∃ nd₀ nd nd', createLinestack readToCrLf zeroes noFailure
      ⟨[], [], fun _ => none⟩ true freshState = .ok (some nd₀) ∧
    Reach (stackStep readToCrLf zeroes long0) StackOp.Admitted nd₀ nd ∧ nd.count = 1 ∧
    createLinestack readToCrLf zeroes noFailure nd.dir false freshState = .ok (some nd') ∧
    linestackGetState readToCrLf zeroes long0 nd' none = .ok (none, nd') ∧
    ¬ReopensAs readToCrLf zeroes long0 nd freshState := by
  obtain ⟨nd₀, nd, hnew, h, hcount⟩ := nick_logged
  have hn : 0 < nd.count := hcount ▸ Nat.one_pos
  have hahead := Ahead.of_reach hnew h
  obtain ⟨r, hr⟩ := freshState_writable
  have hopen : ∃ x, createLinestack readToCrLf zeroes noFailure nd.dir false freshState = .ok x := by
    have hc : nd.dir.index.length / INDEX_RECORD_SIZE = nd.count := by
      rw [LinestackContext.dir, hahead.index_size, INDEX_RECORD_SIZE]
      exact Nat.mul_div_cancel _ (by decide)
    unfold createLinestack fileInsertState
    rw [openContext, if_neg Bool.noConfusion, hc, intAdd_eq (by simpa using hahead.count_size), hr]
    exact ⟨_, rfl⟩
  obtain ⟨x, hx⟩ := hopen
  obtain ⟨nd', rfl, hre⟩ := hahead.reopened hx
  exact ⟨nd₀, nd, nd', hnew, h, hcount, hx, hre.current_missing hn, hahead.not_reopensAs hn⟩

end Ctrlproxy
