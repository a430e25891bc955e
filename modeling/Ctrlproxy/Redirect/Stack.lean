import Mathlib.Data.List.Nodup
import Ctrlproxy.Lib.Outcome
import Ctrlproxy.Redirect.Table

/-!
# Redirect — the query stack

`struct query_stack` of `libirc/redirect.h` with the functions of `libirc/redirect.c` that record a
command and look up the client a numeric belongs to.  The userdata of an entry (the client that
sent the command) is a type of its own; the time an entry was made at is read by nothing and left
out.

An entry is known by its address: `g_list_remove` compares pointers.  `next` is the address the
next entry gets.  Of `ref_userdata` and `unref_userdata` the stack keeps what they were called with.
-/

namespace Ctrlproxy.Redirect
open Outcome

/-- `struct query_stack_entry`. -/
structure Entry (U : Type) where
  ref : ℕ
  query : Query
  userdata : U
  deriving DecidableEq

/-- `struct query_stack`. -/
structure QueryStack (U : Type) where
  entries : List (Entry U)
  next : ℕ
  /-- the calls of `ref_userdata` -/
  refs : List U
  /-- the calls of `unref_userdata` -/
  unrefs : List U
  deriving DecidableEq

/-- `new_query_stack`. -/
def newQueryStack (U : Type) : QueryStack U := ⟨[], 0, [], []⟩

/-- `is_reply`: the vector has room for 20 numerics. -/
def isReply (replies : List ℤ) (r : ℤ) : Bool := (replies.take 20).contains r

/-- `find_query`. -/
def findQuery (name : Str) : Option Query := queries.find? fun q => baseEq q.name name

/-- The row of the table a command is recorded under. -/
def queryOf (name : Str) : Query := (findQuery name).getD unknownQuery

/-- Whether a row has a numeric in one of its three vectors. -/
def Query.lists (q : Query) (n : ℤ) : Bool :=
  isReply q.replies n || isReply q.errors n || isReply q.endReplies n

/-- `irc_line_respcode`. -/
def ircLineRespcode (l : IrcLine) : ℤ :=
  match l.args with
  | [] => 0
  | a :: _ => atoi a

variable {U : Type}

/-- `handle_default`. -/
def handleDefault (stack : QueryStack U) (userdata : U) (q : Query) : QueryStack U :=
  { stack with
    entries := stack.entries ++ [⟨stack.next, q, userdata⟩]
    next := stack.next + 1
    refs := stack.refs ++ [userdata] }

/-- `handle_topic`: a command that sets the topic is not recorded. -/
def handleTopic (l : IrcLine) (stack : QueryStack U) (userdata : U) (q : Query) :
    Except Fault (QueryStack U) := do
  let text ← l.arg 2
  match text with
  | some _ => pure stack
  | none => pure (handleDefault stack userdata q)

/-- `q->handle`. -/
def Query.record (q : Query) (l : IrcLine) (stack : QueryStack U) (userdata : U) :
    Except Fault (QueryStack U) :=
  match q.handle with
  | .handleDefault => .ok (handleDefault stack userdata q)
  | .handleTopic => handleTopic l stack userdata q

/-- `query_stack_record`: the flag tells whether the command is in the table. -/
def queryStackRecord (stack : QueryStack U) (userdata : U) (l : IrcLine) :
    Except Fault (Bool × QueryStack U) :=
  match l.args with
  | [] => .error .assertion
  | name :: _ => do
      let stack ← (queryOf name).record l stack userdata
      pure ((findQuery name).isSome, stack)

/-- `g_list_remove` and `query_stack_free_entry`. -/
def QueryStack.remove (stack : QueryStack U) (e : Entry U) : QueryStack U :=
  { stack with
    entries := stack.entries.eraseP fun e' => e'.ref = e.ref
    unrefs := stack.unrefs ++ [e.userdata] }

/-- `query_stack_match_response`: the userdata of the first entry whose command the numeric can
answer.  A numeric that is no in-between reply to that command removes the entry. -/
def queryStackMatchResponse (stack : QueryStack U) (l : IrcLine) :
    Except Fault (Option U × QueryStack U) :=
  match l.args with
  | [] => .error .assertion
  | _ :: _ =>
      let n := ircLineRespcode l
      match stack.entries.find? fun e => e.query.lists n with
      | none => .ok (none, stack)
      | some e =>
          if isReply e.query.replies n then .ok (some e.userdata, stack)
          else .ok (some e.userdata, stack.remove e)

/-- The loop of `query_stack_clear`; the first argument bounds its rounds. -/
def clearLoop : ℕ → QueryStack U → Except Fault (QueryStack U)
  | 0, stack => if stack.entries.isEmpty then .ok stack else .error .diverges
  | k + 1, stack => match stack.entries with
      | [] => .ok stack
      | e :: _ => clearLoop k (stack.remove e)

/-- `query_stack_clear`. -/
def queryStackClear (stack : QueryStack U) : Except Fault (QueryStack U) :=
  clearLoop stack.entries.length stack

/-- `query_stack_free`, just before the stack itself is freed. -/
def queryStackFree (stack : QueryStack U) : Except Fault (QueryStack U) := queryStackClear stack

/-! ### Entries in the order of their addresses -/

/-- The entries of a stack stand in the order they were made in. -/
structure QueryStack.Ordered (stack : QueryStack U) : Prop where
  sorted : stack.entries.Pairwise fun a b => a.ref < b.ref
  below : ∀ e ∈ stack.entries, e.ref < stack.next

theorem newQueryStack_ordered : (newQueryStack U).Ordered where
  sorted := .nil
  below := by
    intro e he
    cases he

namespace QueryStack.Ordered

variable {stack : QueryStack U} {e e' : Entry U} {n : ℤ}

theorem handleDefault (h : stack.Ordered) (u : U) (q : Query) :
    (handleDefault stack u q).Ordered where
  sorted := by
    refine List.pairwise_append.mpr ⟨h.sorted, List.pairwise_singleton _ _, ?_⟩
    intro a ha b hb
    cases List.mem_singleton.mp hb
    exact h.below a ha
  below := by
    intro a ha
    rcases List.mem_append.mp ha with ha | ha
    · exact Nat.lt_succ_of_lt (h.below a ha)
    · cases List.mem_singleton.mp ha
      exact Nat.lt_succ_self _

theorem remove (h : stack.Ordered) (e : Entry U) : (stack.remove e).Ordered where
  sorted := h.sorted.sublist List.eraseP_sublist
  below := fun a ha => h.below a (List.mem_of_mem_eraseP ha)

/-- The first entry that lists a numeric is not younger than another that does. -/
theorem first_le (h : stack.Ordered)
    (hf : stack.entries.find? (fun e => e.query.lists n) = some e) (he : e' ∈ stack.entries)
    (hn : e'.query.lists n = true) : e.ref ≤ e'.ref := by
  obtain ⟨-, l, r, hl, hno⟩ := List.find?_eq_some_iff_append.mp hf
  rw [hl] at he
  rcases List.mem_append.mp he with he | he
  · have := hno e' he
    simp [hn] at this
  · rcases List.mem_cons.mp he with rfl | he
    · exact le_rfl
    · have hs := h.sorted
      rw [hl] at hs
      exact (List.rel_of_pairwise_cons (List.pairwise_append.mp hs).2.1 he).le

/-- An address belongs to one entry. -/
theorem eq_of_ref (h : stack.Ordered) (he : e ∈ stack.entries) (he' : e' ∈ stack.entries)
    (hr : e.ref = e'.ref) : e = e' := by
  have hnd : (stack.entries.map Entry.ref).Nodup :=
    List.pairwise_map.mpr (h.sorted.imp fun h => h.ne)
  exact List.inj_on_of_nodup_map hnd he he' hr

end QueryStack.Ordered

theorem QueryStack.mem_remove {stack : QueryStack U} {e e' : Entry U} (he' : e' ∈ stack.entries)
    (hne : e'.ref ≠ e.ref) : e' ∈ (stack.remove e).entries :=
  (List.mem_eraseP_of_neg (by simpa using hne)).mpr he'

end Ctrlproxy.Redirect
