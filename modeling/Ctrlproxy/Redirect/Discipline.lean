import Mathlib.Data.List.Count
import Ctrlproxy.Redirect.Delivery

/-!
# Redirect — the discipline of the stack

`History` is a stack with what happened to it: the queries that were recorded, and the addresses of
those that were retired since.  A response retires the first query it can answer, unless it is one
of that query's in-between replies; a clear retires them all.  `reachable_disciplined` is what the
stack is then: the queries that are left, in order, each with one reference to its userdata.

`query_stack_record` reads `args[2]` of a `TOPIC`, also where the line ends before it.
-/

namespace Ctrlproxy.Redirect
open Outcome

/-! ### The table -/

/-- No vector of a row is longer than the search of `is_reply`. -/
theorem rows_short : ∀ q ∈ unknownQuery :: queries,
    q.replies.length ≤ 20 ∧ q.errors.length ≤ 20 ∧ q.endReplies.length ≤ 20 := by
  decide

theorem queryOf_mem (name : Str) : queryOf name ∈ unknownQuery :: queries := by
  unfold queryOf findQuery
  cases hf : queries.find? fun q => baseEq q.name name with
  | none => exact List.mem_cons_self
  | some q => exact List.mem_cons_of_mem _ (List.mem_of_find?_eq_some hf)

theorem isReply_iff {l : List ℤ} (h : l.length ≤ 20) (n : ℤ) : isReply l n = true ↔ n ∈ l := by
  rw [isReply, List.take_of_length_le h, List.contains_iff_mem]

/-- A response with this numeric can answer the query. -/
def Query.Answered (q : Query) (n : ℤ) : Prop := n ∈ q.replies ∨ n ∈ q.errors ∨ n ∈ q.endReplies

instance (q : Query) (n : ℤ) : Decidable (q.Answered n) := inferInstanceAs (Decidable (_ ∨ _))

theorem lists_iff {q : Query} (h : q ∈ unknownQuery :: queries) (n : ℤ) :
    q.lists n = true ↔ q.Answered n := by
  obtain ⟨hr, he, hd⟩ := rows_short q h
  simp only [Query.lists, Bool.or_eq_true, isReply_iff hr, isReply_iff he, isReply_iff hd,
    Query.Answered, or_assoc]

/-! ### Histories -/

/-- A stack, the queries that were recorded in it, and which of them were retired. -/
structure History (U : Type) where
  stack : QueryStack U
  recorded : List (Entry U)
  retired : List ℕ
  freed : Bool

inductive StackOp (U : Type) where
  | record (userdata : U) (line : IrcLine)
  | response (line : IrcLine)
  | clear
  | free

variable {U : Type}

namespace History

def start (U : Type) : History U := ⟨newQueryStack U, [], [], false⟩

/-- The recorded queries not yet retired. -/
def pending (h : History U) : List (Entry U) :=
  h.recorded.filter fun e => e.ref ∉ h.retired

/-- The earliest query that a numeric can answer. -/
def answered (h : History U) (n : ℤ) : Option (Entry U) :=
  h.pending.find? fun e => e.query.Answered n

/-- What a numeric retires. -/
def retires (h : History U) (n : ℤ) : List ℕ :=
  match h.answered n with
  | none => []
  | some e => if n ∈ e.query.replies then [] else [e.ref]

def step (h : History U) : StackOp U → Except Fault (History U)
  | .record u l => do
      let (_, stack) ← queryStackRecord h.stack u l
      let new := if Recorded l then [⟨h.stack.next, rowOf l, u⟩] else []
      pure { h with stack := stack, recorded := h.recorded ++ new }
  | .response l => do
      let (_, stack) ← queryStackMatchResponse h.stack l
      pure { h with stack := stack, retired := h.retired ++ h.retires (ircLineRespcode l) }
  | .clear => do
      let stack ← queryStackClear h.stack
      pure { h with stack := stack, retired := h.recorded.map Entry.ref }
  | .free => do
      let stack ← queryStackFree h.stack
      pure { h with stack := stack, retired := h.recorded.map Entry.ref, freed := true }

/-- The stack is there, and a line has a command: `g_assert(l->args[0])`. -/
def Admits (h : History U) (op : StackOp U) : Prop :=
  h.freed = false ∧ match op with
    | .record _ l => l.args ≠ []
    | .response l => l.args ≠ []
    | .clear => True
    | .free => True

end History

/-- A `TOPIC` that is recorded has an argument. -/
def StackOp.Whole : StackOp U → Prop
  | .record _ l => (rowOf l).handle = .handleTopic → 2 ≤ l.argc
  | .response _ => True
  | .clear => True
  | .free => True

instance (h : History U) : (op : StackOp U) → Decidable (h.Admits op)
  | .record _ l => inferInstanceAs (Decidable (_ ∧ l.args ≠ []))
  | .response l => inferInstanceAs (Decidable (_ ∧ l.args ≠ []))
  | .clear => inferInstanceAs (Decidable (_ ∧ True))
  | .free => inferInstanceAs (Decidable (_ ∧ True))

instance : (op : StackOp U) → Decidable op.Whole
  | .record _ l => inferInstanceAs (Decidable ((rowOf l).handle = .handleTopic → 2 ≤ l.argc))
  | .response _ => inferInstanceAs (Decidable True)
  | .clear => inferInstanceAs (Decidable True)
  | .free => inferInstanceAs (Decidable True)

/-! ### What every history keeps -/

/-- The stack holds what is pending, and a reference for each entry. -/
structure History.Inv (h : History U) : Prop where
  entries : h.stack.entries = h.pending
  sorted : h.recorded.Pairwise fun a b => a.ref < b.ref
  below : ∀ e ∈ h.recorded, e.ref < h.stack.next
  retired_below : ∀ r ∈ h.retired, r < h.stack.next
  rows : ∀ e ∈ h.recorded, e.query ∈ unknownQuery :: queries
  refs : h.stack.refs.Perm (h.stack.unrefs ++ h.stack.entries.map Entry.userdata)

theorem start_history : (History.start U).Inv where
  entries := rfl
  sorted := .nil
  below := fun _ he => by cases he
  retired_below := fun _ he => by cases he
  rows := fun _ he => by cases he
  refs := .refl _

section
variable {h : History U}

theorem History.Inv.ordered (hi : h.Inv) : h.stack.Ordered where
  sorted := hi.entries ▸ hi.sorted.sublist List.filter_sublist
  below := fun e he => hi.below e (List.mem_of_mem_filter (hi.entries ▸ he))

theorem History.Inv.row (hi : h.Inv) {e : Entry U} (he : e ∈ h.stack.entries) :
    e.query ∈ unknownQuery :: queries :=
  hi.rows e (List.mem_of_mem_filter (hi.entries ▸ he))

/-- To remove an entry is to keep the others. -/
theorem QueryStack.Ordered.remove_entries {stack : QueryStack U} (ho : stack.Ordered)
    (e : Entry U) : (stack.remove e).entries = stack.entries.filter fun e' => e'.ref ≠ e.ref := by
  have aux : ∀ l : List (Entry U), l.Pairwise (fun a b => a.ref < b.ref) →
      l.eraseP (fun e' => e'.ref = e.ref) = l.filter fun e' => e'.ref ≠ e.ref := by
    intro l hl
    induction l with
    | nil => rfl
    | cons a l ih =>
        by_cases ha : a.ref = e.ref
        · rw [List.eraseP_cons_of_pos (by simpa using ha), List.filter_cons_of_neg (by simpa using ha),
            List.filter_eq_self.mpr]
          intro b hb
          have := List.rel_of_pairwise_cons hl hb
          simp only [ne_eq, decide_not, Bool.not_eq_eq_eq_not, Bool.not_true, decide_eq_false_iff_not]
          omega
        · rw [List.eraseP_cons_of_neg (by simpa using ha), List.filter_cons_of_pos (by simpa using ha),
            ih hl.of_cons]
  exact aux _ ho.sorted

/-- To remove an entry is to leave the entries around it. -/
theorem QueryStack.Ordered.remove_split {stack : QueryStack U} (ho : stack.Ordered) {e : Entry U}
    {l₁ l₂ : List (Entry U)} (hs : stack.entries = l₁ ++ e :: l₂) :
    (stack.remove e).entries = l₁ ++ l₂ := by
  have hl₁ : ∀ a ∈ l₁, ¬(decide (a.ref = e.ref) = true) := by
    intro a ha
    have hlt := (List.pairwise_append.mp (hs ▸ ho.sorted)).2.2 a ha e List.mem_cons_self
    rw [decide_eq_true_iff]
    omega
  show stack.entries.eraseP _ = _
  rw [hs, List.eraseP_append_right _ hl₁, List.eraseP_cons_of_pos (by simp)]

/-- The reference of an entry that is removed is given back. -/
theorem QueryStack.remove_refs {stack : QueryStack U} (ho : stack.Ordered) {e : Entry U}
    (he : e ∈ stack.entries)
    (hr : stack.refs.Perm (stack.unrefs ++ stack.entries.map Entry.userdata)) :
    (stack.remove e).refs.Perm
      ((stack.remove e).unrefs ++ (stack.remove e).entries.map Entry.userdata) := by
  obtain ⟨l₁, l₂, hs⟩ := List.append_of_mem he
  rw [ho.remove_split hs]
  refine hr.trans ?_
  rw [hs]
  show (stack.unrefs ++ (l₁ ++ e :: l₂).map Entry.userdata).Perm
    (stack.unrefs ++ [e.userdata] ++ (l₁ ++ l₂).map Entry.userdata)
  simp only [List.map_append, List.map_cons, List.append_assoc, List.singleton_append]
  exact List.Perm.append_left _ List.perm_middle

/-- The search of the stack finds the earliest query a numeric can answer. -/
theorem History.Inv.find (hi : h.Inv) (n : ℤ) :
    h.stack.entries.find? (fun e => e.query.lists n) = h.answered n := by
  rw [History.answered, ← hi.entries]
  have aux : ∀ l : List (Entry U), (∀ e ∈ l, e.query ∈ unknownQuery :: queries) →
      l.find? (fun e => e.query.lists n) = l.find? fun e => e.query.Answered n := by
    intro l hl
    induction l with
    | nil => rfl
    | cons a l ih =>
        have ha : a.query.lists n = decide (a.query.Answered n) := by
          rw [Bool.eq_iff_iff, decide_eq_true_iff]
          exact lists_iff (hl a List.mem_cons_self) n
        rw [List.find?_cons, List.find?_cons, ha, ih fun e he => hl e (List.mem_cons_of_mem _ he)]
  exact aux _ fun e he => hi.row he

/-! ### Recording -/

/-- Recording a command adds an entry for it, unless it sets a topic; only a bare `TOPIC` is not
recorded. -/
theorem queryStackRecord_eq (stack : QueryStack U) (u : U) {l : IrcLine} (hl : l.args ≠ []) :
    ((∃ b, queryStackRecord stack u l =
        .ok (b, if Recorded l then handleDefault stack u (rowOf l) else stack)) ↔
      (StackOp.record u l).Whole) ∧
    (¬(StackOp.record u l).Whole → queryStackRecord stack u l = .error .overread) := by
  obtain ⟨name, as, ha⟩ := List.exists_cons_of_ne_nil hl
  have hrow : queryOf name = rowOf l := by
    rw [rowOf, ha]
    rfl
  unfold queryStackRecord
  simp only [ha, hrow, Query.record, StackOp.Whole]
  cases hh : (rowOf l).handle with
  | handleDefault =>
      have hrec : Recorded l := by
        intro e
        rw [hh] at e
        cases e
      simp [hrec]
  | handleTopic =>
      simp only [handleTopic, IrcLine.arg]
      by_cases hc : 2 ≤ l.argc
      · rw [if_pos hc, ok_bind]
        cases ht : l.args[2]? with
        | none =>
            have hrec : Recorded l := fun _ => ht
            simp [hrec, hc]
        | some t =>
            have hrec : ¬Recorded l := by
              intro h
              rw [h hh] at ht
              cases ht
            simp [hrec, hc]
      · rw [if_neg hc]
        simp [hc]

theorem History.Inv.record (hi : h.Inv) (u : U) (l : IrcLine) :
    History.Inv { h with
      stack := if Recorded l then handleDefault h.stack u (rowOf l) else h.stack
      recorded := h.recorded ++ if Recorded l then [⟨h.stack.next, rowOf l, u⟩] else [] } := by
  by_cases hrec : Recorded l
  · rw [if_pos hrec, if_pos hrec]
    have hnew : h.stack.next ∉ h.retired := fun hm => Nat.lt_irrefl _ (hi.retired_below _ hm)
    exact
      { entries := by
          show h.stack.entries ++ _ = List.filter _ (_ ++ _)
          rw [hi.entries, List.filter_append, List.filter_cons_of_pos (by simpa using hnew)]
          rfl
        sorted := by
          refine List.pairwise_append.mpr ⟨hi.sorted, List.pairwise_singleton _ _, ?_⟩
          intro a ha b hb
          cases List.mem_singleton.mp hb
          exact hi.below a ha
        below := by
          intro e he
          rcases List.mem_append.mp he with he | he
          · exact Nat.lt_succ_of_lt (hi.below e he)
          · cases List.mem_singleton.mp he
            exact Nat.lt_succ_self _
        retired_below := fun r hr => Nat.lt_succ_of_lt (hi.retired_below r hr)
        rows := by
          intro e he
          rcases List.mem_append.mp he with he | he
          · exact hi.rows e he
          · cases List.mem_singleton.mp he
            exact queryOf_mem _
        refs := by
          show (h.stack.refs ++ [u]).Perm
            (h.stack.unrefs ++ (h.stack.entries ++ [_]).map Entry.userdata)
          rw [List.map_append, ← List.append_assoc]
          exact hi.refs.append_right [u] }
  · rw [if_neg hrec, if_neg hrec, List.append_nil]
    exact hi

/-! ### Responses -/

/-- What a response does: the earliest query it can answer decides. -/
theorem History.Inv.response_eq (hi : h.Inv) {l : IrcLine} (hl : l.args ≠ []) :
    queryStackMatchResponse h.stack l = .ok ((h.answered (ircLineRespcode l)).map Entry.userdata,
      match h.answered (ircLineRespcode l) with
      | none => h.stack
      | some e => if ircLineRespcode l ∈ e.query.replies then h.stack else h.stack.remove e) := by
  obtain ⟨name, as, ha⟩ := List.exists_cons_of_ne_nil hl
  unfold queryStackMatchResponse
  simp only [ha, hi.find]
  cases hf : h.answered (ircLineRespcode l) with
  | none => rfl
  | some e =>
      have he : e ∈ h.stack.entries := hi.entries ▸ List.mem_of_find?_eq_some hf
      have hin := isReply_iff (rows_short _ (hi.row he)).1 (ircLineRespcode l)
      by_cases hn : ircLineRespcode l ∈ e.query.replies
      · simp [hn, hin.mpr hn]
      · have hno : isReply e.query.replies (ircLineRespcode l) = false := by
          rw [Bool.eq_false_iff]
          exact fun hy => hn (hin.mp hy)
        simp [hn, hno]

/-- A query is retired with its entry. -/
theorem History.Inv.retire (hi : h.Inv) {e : Entry U} (he : e ∈ h.stack.entries) :
    History.Inv { h with stack := h.stack.remove e, retired := h.retired ++ [e.ref] } where
  entries := by
    show (h.stack.remove e).entries = List.filter _ _
    rw [hi.ordered.remove_entries, hi.entries, History.pending, List.filter_filter]
    refine List.filter_congr fun a _ => ?_
    simp [and_comm]
  sorted := hi.sorted
  below := hi.below
  retired_below := by
    intro r hr
    rcases List.mem_append.mp hr with hr | hr
    · exact hi.retired_below r hr
    · cases List.mem_singleton.mp hr
      exact hi.ordered.below e he
  rows := hi.rows
  refs := QueryStack.remove_refs hi.ordered he hi.refs

theorem History.Inv.response (hi : h.Inv) (n : ℤ) :
    History.Inv { h with
      stack := match h.answered n with
        | none => h.stack
        | some e => if n ∈ e.query.replies then h.stack else h.stack.remove e
      retired := h.retired ++ h.retires n } := by
  unfold History.retires
  cases hf : h.answered n with
  | none =>
      rw [List.append_nil]
      exact hi
  | some e =>
      by_cases hn : n ∈ e.query.replies
      · simp only [if_pos hn, List.append_nil]
        exact hi
      · simp only [if_neg hn]
        exact hi.retire (hi.entries ▸ List.mem_of_find?_eq_some hf)

/-! ### Clearing -/

theorem clearLoop_total {k : ℕ} {stack : QueryStack U} (ho : stack.Ordered)
    (hk : stack.entries.length = k)
    (hr : stack.refs.Perm (stack.unrefs ++ stack.entries.map Entry.userdata)) :
    ∃ stack', clearLoop k stack = .ok stack' ∧ stack'.entries = [] ∧ stack'.next = stack.next ∧
      stack'.refs.Perm stack'.unrefs := by
  induction k generalizing stack with
  | zero =>
      have hnil := List.length_eq_zero_iff.mp hk
      rw [hnil, List.map_nil, List.append_nil] at hr
      exact ⟨stack, by simp [clearLoop, hnil], hnil, rfl, hr⟩
  | succ k ih =>
      obtain ⟨e, l, hs⟩ := List.exists_cons_of_length_eq_add_one hk
      have he : e ∈ stack.entries := hs ▸ List.mem_cons_self
      have hs' : stack.entries = [] ++ e :: l := hs
      have hrest : (stack.remove e).entries = [] ++ l := ho.remove_split hs'
      rw [List.nil_append] at hrest
      obtain ⟨stack', hloop, hnil, hnext, hr'⟩ := ih (ho.remove e)
        (by rw [hrest]; rw [hs, List.length_cons] at hk; omega) (QueryStack.remove_refs ho he hr)
      refine ⟨stack', ?_, hnil, hnext, hr'⟩
      rw [clearLoop, hs]
      exact hloop

/-- A clear leaves nothing, and gives every reference back. -/
theorem History.Inv.clear_total (hi : h.Inv) :
    ∃ stack, queryStackClear h.stack = .ok stack ∧ stack.entries = [] ∧
      stack.next = h.stack.next ∧ stack.refs.Perm stack.unrefs :=
  clearLoop_total hi.ordered rfl hi.refs

theorem History.Inv.cleared (hi : h.Inv) {stack : QueryStack U} (hs : stack.entries = [])
    (hn : stack.next = h.stack.next) (hr : stack.refs.Perm stack.unrefs) (freed : Bool) :
    History.Inv ⟨stack, h.recorded, h.recorded.map Entry.ref, freed⟩ where
  entries := by
    rw [hs]
    symm
    refine List.filter_eq_nil_iff.mpr fun e he => ?_
    simpa using ⟨e, he, rfl⟩
  sorted := hi.sorted
  below := fun e he => hn ▸ hi.below e he
  retired_below := by
    intro r hr
    obtain ⟨e, he, rfl⟩ := List.mem_map.mp hr
    exact hn ▸ hi.below e he
  rows := hi.rows
  refs := by
    rw [hs, List.map_nil, List.append_nil]
    exact hr

/-! ### Runs -/

/-- An operation completes, and keeps the invariant, unless it records a bare `TOPIC`. -/
theorem History.Inv.step (hi : h.Inv) {op : StackOp U} (ha : h.Admits op) :
    (op.Whole → ∃ h', h.step op = .ok h' ∧ h'.Inv) ∧ (¬op.Whole → h.step op = .error .overread) := by
  cases op with
  | record u l =>
      obtain ⟨hok, hno⟩ := queryStackRecord_eq h.stack u ha.2
      refine ⟨fun hw => ?_, fun hw => ?_⟩
      · obtain ⟨b, hb⟩ := hok.mpr hw
        exact ⟨_, by rw [History.step, hb]; rfl, hi.record u l⟩
      · rw [History.step, hno hw]
        rfl
  | response l =>
      refine ⟨fun _ => ⟨_, ?_, hi.response (ircLineRespcode l)⟩, fun hw => absurd trivial hw⟩
      rw [History.step, hi.response_eq ha.2]
      rfl
  | clear =>
      obtain ⟨stack, hc, hs, hn, hr⟩ := hi.clear_total
      refine ⟨fun _ => ⟨_, ?_, hi.cleared hs hn hr h.freed⟩, fun hw => absurd trivial hw⟩
      rw [History.step, hc]
      rfl
  | free =>
      obtain ⟨stack, hc, hs, hn, hr⟩ := hi.clear_total
      refine ⟨fun _ => ⟨_, ?_, hi.cleared hs hn hr true⟩, fun hw => absurd trivial hw⟩
      rw [History.step, queryStackFree, hc]
      rfl

theorem reachable_history
    (hr : Reach History.step (fun h op => h.Admits op ∧ op.Whole) (History.start U) h) : h.Inv :=
  hr.invariant start_history fun h op hi ha => by
    obtain ⟨h', hs, hi'⟩ := (hi.step ha.1).1 ha.2
    rw [hs]
    exact hi'

/-- **The stack is disciplined.** In every history in which no bare `TOPIC` is recorded: the entries
are the queries that are pending, in the order they were recorded; a response is matched to the
earliest of them that it can answer, and takes out that entry and no other, if it takes out any;
each userdata has as many references as entries, and none after a clear or a free; and an operation
completes exactly if it records no bare `TOPIC`. -/
theorem reachable_disciplined [DecidableEq U]
    (hr : Reach History.step (fun h op => h.Admits op ∧ op.Whole) (History.start U) h) :
    h.stack.entries = h.pending ∧
    (∀ l : IrcLine, l.args ≠ [] → ∃ stack, queryStackMatchResponse h.stack l =
        .ok ((h.answered (ircLineRespcode l)).map Entry.userdata, stack) ∧
      (∀ e ∈ h.answered (ircLineRespcode l), ircLineRespcode l ∉ e.query.replies →
        ∃ l₁ l₂, h.stack.entries = l₁ ++ e :: l₂ ∧ stack.entries = l₁ ++ l₂) ∧
      ((∀ e ∈ h.answered (ircLineRespcode l), ircLineRespcode l ∈ e.query.replies) →
        stack.entries = h.stack.entries)) ∧
    (∀ u, h.stack.refs.count u =
      h.stack.unrefs.count u + (h.stack.entries.map Entry.userdata).count u) ∧
    (∃ stack, queryStackClear h.stack = .ok stack ∧ queryStackFree h.stack = .ok stack ∧
      stack.entries = [] ∧ ∀ u, stack.refs.count u = stack.unrefs.count u) ∧
    ∀ op, h.Admits op → ((∃ h', h.step op = .ok h') ↔ op.Whole) := by
  have hi := reachable_history hr
  refine ⟨hi.entries, fun l hl => ⟨_, hi.response_eq hl, ?_, ?_⟩, fun u => ?_, ?_, fun op ha => ?_⟩
  · intro e he hn
    have hf : h.answered (ircLineRespcode l) = some e := he
    obtain ⟨l₁, l₂, hs⟩ := List.append_of_mem (hi.entries ▸ List.mem_of_find?_eq_some hf)
    refine ⟨l₁, l₂, hs, ?_⟩
    simp only [hf, if_neg hn]
    exact hi.ordered.remove_split hs
  · intro hn
    cases hf : h.answered (ircLineRespcode l) with
    | none => rfl
    | some e => simp only [if_pos (hn e hf)]
  · rw [← List.count_append]
    exact hi.refs.count_eq u
  · obtain ⟨stack, hc, hs, -, hp⟩ := hi.clear_total
    exact ⟨stack, hc, hc, hs, fun u => hp.count_eq u⟩
  · refine ⟨?_, fun hw => ?_⟩
    · rintro ⟨h', hs⟩
      by_contra hw
      rw [(hi.step ha).2 hw] at hs
      cases hs
    · obtain ⟨h', hs, -⟩ := (hi.step ha).1 hw
      exact ⟨h', hs⟩

end

/-- Two clients ask; the first gets its last answer. -/
theorem reachable_disciplined_whois : ∃ h : History ℕ,
    Reach History.step (fun h op => h.Admits op ∧ op.Whole) (History.start ℕ) h ∧
    h.stack.entries.map Entry.userdata = [1] ∧
    ∀ u, h.stack.refs.count u =
      h.stack.unrefs.count u + (h.stack.entries.map Entry.userdata).count u := by
  have run : (admittedRun History.step (fun h op => h.Admits op ∧ op.Whole) (History.start ℕ)
      [.record 0 (command ["WHOIS", "nick"]), .record 1 (command ["FOO"]),
        .record 0 (command ["TOPIC", "#c", "hi"]), .response (command ["311"]),
        .response (command ["318"])]).map
        (fun h => h.stack.entries.map Entry.userdata) = some [1] := by
    decide +kernel
  obtain ⟨h, hh, hd⟩ := Option.map_eq_some_iff.mp run
  have hr := Reach.refl.of_admittedRun hh
  exact ⟨h, hr, hd, (reachable_disciplined hr).2.2.1⟩

/-- The line `TOPIC` is parsed into a vector of two pointers, and the third is read. -/
theorem bare_topic_overreads :
    ¬∀ (U : Type) (h : History U), Reach History.step History.Admits (History.start U) h →
      ∀ op, h.Admits op → ∃ h', h.step op = .ok h' := by
  intro hall
  have hstep : (History.start ℕ).step (.record 0 ⟨none, [str "TOPIC"], .withoutColon⟩) =
      .error .overread :=
    (start_history.step ⟨rfl, by decide⟩).2 (by decide +kernel)
  obtain ⟨h', hh⟩ := hall ℕ (History.start ℕ) .refl
    (.record 0 ⟨none, [str "TOPIC"], .withoutColon⟩) ⟨rfl, by decide⟩
  rw [hstep] at hh
  cases hh

example : ircParseLine (str "TOPIC") = some ⟨none, [str "TOPIC"], .withoutColon⟩ := by decide

end Ctrlproxy.Redirect
