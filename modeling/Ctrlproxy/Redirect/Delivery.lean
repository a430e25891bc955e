import Ctrlproxy.Redirect.Stack

/-!
# Redirect — who gets the answers

Several clients send commands through one connection to a server.  The server takes the commands
in the order they were sent, answers each with numerics that the command's row of the table lists,
or with none, and goes on to the next.  A numeric is handed to the client
`query_stack_match_response` names for it.

Nothing tells the stack that the server is done with a command it answered with silence: the
command's entry stays, and takes the next numeric its row lists.  `reachable_delivered` says what
has to hold when a numeric comes in for it to reach the client that asked.
-/

namespace Ctrlproxy.Redirect
open Outcome

/-- A command the server has not finished answering; `entry` is the address of the entry it was
recorded in. -/
structure Sent (U : Type) where
  client : U
  line : IrcLine
  entry : Option ℕ
  deriving DecidableEq

/-- The row of the table a command was recorded under. -/
def rowOf (l : IrcLine) : Query := queryOf (l.args.headD [])

/-- The proxy, the server and what went between them. -/
structure Session (U : Type) where
  stack : QueryStack U
  /-- the commands sent and not finished, the one being answered first -/
  waiting : List (Sent U)
  /-- the numerics sent so far in answer to the first of them -/
  answered : List ℤ
  /-- for every numeric, the client that asked and the client it was handed to -/
  delivered : List (U × Option U)
  deriving DecidableEq

/-- A line without origin. -/
def command (args : List String) : IrcLine := ⟨none, args.map str, .colonUnknown⟩

def Session.start (U : Type) : Session U := ⟨newQueryStack U, [], [], []⟩

inductive Event (U : Type) where
  /-- a client's command is sent to the server -/
  | send (client : U) (line : IrcLine)
  /-- a numeric comes from the server, in answer to the first command waiting -/
  | reply (line : IrcLine)
  /-- the server goes on to the next command -/
  | done

variable {U : Type}

/-- What an event does.  A numeric while no command waits answers nothing. -/
def Session.step (σ : Session U) : Event U → Except Fault (Session U)
  | .send u l => do
      let (_, stack) ← queryStackRecord σ.stack u l
      let entry := if stack.next = σ.stack.next then none else some σ.stack.next
      pure { σ with stack := stack, waiting := σ.waiting ++ [⟨u, l, entry⟩] }
  | .reply l => do
      let (r, stack) ← queryStackMatchResponse σ.stack l
      pure { σ with
        stack := stack
        answered := σ.answered ++ [ircLineRespcode l]
        delivered := σ.delivered ++ (σ.waiting.head?.map fun p => (p.client, r)).toList }
  | .done => .ok { σ with waiting := σ.waiting.tail, answered := [] }

/-- A numeric the server may send: one that the row of the command being answered lists. -/
structure Session.Allowed (σ : Session U) (e : Event U) : Prop where
  listed : ∀ l, e = .reply l →
    ∃ p ∈ σ.waiting.head?, (rowOf p.line).lists (ircLineRespcode l) = true

/-- The command was recorded: it is no `TOPIC` with a text. -/
def Recorded (l : IrcLine) : Prop := (rowOf l).handle = .handleTopic → l.args[2]? = none

instance (l : IrcLine) : Decidable (Recorded l) := inferInstanceAs (Decidable (_ → _))

/-- The entry is left over from a command the server is done with. -/
def Session.Stale (σ : Session U) (e : Entry U) : Prop := ∀ q ∈ σ.waiting, q.entry ≠ some e.ref

/-- The state is one in which a numeric finds its way: the command `p` being answered was recorded,
nothing ended its answer before, and no other client's entry is left over that lists the
numeric. -/
structure Session.InTurn (σ : Session U) (e : Event U) : Prop where
  recorded : ∀ l, e = .reply l → ∀ p ∈ σ.waiting.head?, Recorded p.line
  unfinished : ∀ l, e = .reply l → ∀ p ∈ σ.waiting.head?,
    ∀ n ∈ σ.answered, isReply (rowOf p.line).replies n = true
  unclaimed : ∀ l, e = .reply l → ∀ p ∈ σ.waiting.head?,
    ∀ s ∈ σ.stack.entries, σ.Stale s → s.query.lists (ircLineRespcode l) = true →
      s.userdata = p.client

instance (σ : Session U) (e : Entry U) : Decidable (σ.Stale e) :=
  inferInstanceAs (Decidable (∀ _ ∈ _, _))

instance (σ : Session U) : (e : Event U) → Decidable (σ.Allowed e)
  | .send _ _ => .isTrue ⟨nofun⟩
  | .done => .isTrue ⟨nofun⟩
  | .reply l => decidable_of_iff
      (∃ p ∈ σ.waiting.head?, (rowOf p.line).lists (ircLineRespcode l) = true)
      ⟨fun h => ⟨fun _ e => by cases e; exact h⟩, fun h => h.listed l rfl⟩

instance [DecidableEq U] (σ : Session U) : (e : Event U) → Decidable (σ.InTurn e)
  | .send _ _ => .isTrue ⟨nofun, nofun, nofun⟩
  | .done => .isTrue ⟨nofun, nofun, nofun⟩
  | .reply l => decidable_of_iff
      (∀ p ∈ σ.waiting.head?, Recorded p.line ∧
        (∀ n ∈ σ.answered, isReply (rowOf p.line).replies n = true) ∧
        ∀ s ∈ σ.stack.entries, σ.Stale s → s.query.lists (ircLineRespcode l) = true →
          s.userdata = p.client)
      ⟨fun h =>
        { recorded := fun _ e p hp => by cases e; exact (h p hp).1
          unfinished := fun _ e p hp => by cases e; exact (h p hp).2.1
          unclaimed := fun _ e p hp => by cases e; exact (h p hp).2.2 },
      fun h p hp => ⟨h.recorded l rfl p hp, h.unfinished l rfl p hp, h.unclaimed l rfl p hp⟩⟩

/-! ### The invariant -/

/-- The entry of a command still waiting is in the stack. -/
def Session.Present (σ : Session U) (p : Sent U) : Prop :=
  ∀ r, p.entry = some r → ⟨r, rowOf p.line, p.client⟩ ∈ σ.stack.entries

structure Session.Inv (σ : Session U) : Prop where
  ordered : σ.stack.Ordered
  sorted : σ.waiting.Pairwise fun p q => ∀ r, p.entry = some r → ∀ r', q.entry = some r' → r < r'
  below : ∀ p ∈ σ.waiting, ∀ r, p.entry = some r → r < σ.stack.next
  entered : ∀ p ∈ σ.waiting, Recorded p.line → p.entry ≠ none
  tail : ∀ p ∈ σ.waiting.tail, σ.Present p
  head : ∀ p ∈ σ.waiting.head?, (∀ n ∈ σ.answered, isReply (rowOf p.line).replies n = true) →
    σ.Present p
  delivered : ∀ d ∈ σ.delivered, d.2 = some d.1

theorem start_inv : (Session.start U).Inv where
  ordered := newQueryStack_ordered
  sorted := .nil
  below := by simp [Session.start]
  entered := by simp [Session.start]
  tail := by simp [Session.start]
  head := by simp [Session.start]
  delivered := by simp [Session.start]

/-! ### Sending -/

/-- Recording a command adds an entry for it, or is a topic that is set. -/
theorem queryStackRecord_ensures (stack : QueryStack U) (u : U) (l : IrcLine) :
    Ensures (queryStackRecord stack u l)
      (fun r => r.2 = handleDefault stack u (rowOf l) ∨ r.2 = stack ∧ ¬Recorded l)
      (fun _ => True) := by
  unfold queryStackRecord
  cases ha : l.args with
  | nil => trivial
  | cons name as =>
      have hrow : queryOf name = rowOf l := by rw [rowOf, ha]; rfl
      simp only [hrow]
      unfold Query.record
      cases hh : (rowOf l).handle with
      | handleDefault => exact .inl rfl
      | handleTopic =>
          simp only [handleTopic, IrcLine.arg]
          split
          · cases ht : l.args[2]? with
            | none => exact .inl rfl
            | some t =>
                refine .inr ⟨rfl, fun h => ?_⟩
                rw [h hh] at ht
                cases ht
          · trivial

theorem Session.Present.mono {σ σ' : Session U} {p : Sent U} (h : σ.Present p)
    (hσ : ∀ e ∈ σ.stack.entries, e ∈ σ'.stack.entries) : σ'.Present p :=
  fun r hr => hσ _ (h r hr)

/-- A command is put at the end of the queue, with the youngest entry or none. -/
theorem Session.Inv.snoc {σ : Session U} (h : σ.Inv) {stack : QueryStack U} {p : Sent U}
    (ho : stack.Ordered) (hn : σ.stack.next ≤ stack.next)
    (hold : ∀ e ∈ σ.stack.entries, e ∈ stack.entries)
    (hnew : ∀ r, p.entry = some r → σ.stack.next ≤ r ∧ r < stack.next ∧
      ⟨r, rowOf p.line, p.client⟩ ∈ stack.entries)
    (hrec : Recorded p.line → p.entry ≠ none) :
    ({ σ with stack := stack, waiting := σ.waiting ++ [p] } : Session U).Inv where
  ordered := ho
  sorted := by
    refine List.pairwise_append.mpr ⟨h.sorted, List.pairwise_singleton _ _, ?_⟩
    intro q hq q' hq' r hr r' hr'
    cases List.mem_singleton.mp hq'
    exact Nat.lt_of_lt_of_le (h.below q hq r hr) (hnew r' hr').1
  below := by
    intro q hq r hr
    rcases List.mem_append.mp hq with hq | hq
    · exact Nat.lt_of_lt_of_le (h.below q hq r hr) hn
    · cases List.mem_singleton.mp hq
      exact (hnew r hr).2.1
  entered := by
    intro q hq
    rcases List.mem_append.mp hq with hq | hq
    · exact h.entered q hq
    · cases List.mem_singleton.mp hq
      exact hrec
  tail := by
    intro q hq
    cases hw : σ.waiting with
    | nil => simp [hw] at hq
    | cons q₀ qs =>
        simp only [hw, List.cons_append, List.tail_cons, List.mem_append,
          List.mem_singleton] at hq
        rcases hq with hq | rfl
        · exact (h.tail q (by rw [hw]; exact hq)).mono hold
        · exact fun r hr => (hnew r hr).2.2
  head := by
    intro q hq ha
    cases hw : σ.waiting with
    | nil =>
        simp only [hw, List.nil_append, List.head?_cons, Option.mem_some_iff] at hq
        subst hq
        exact fun r hr => (hnew r hr).2.2
    | cons q₀ qs =>
        simp only [hw, List.cons_append, List.head?_cons, Option.mem_some_iff] at hq
        subst hq
        exact (h.head q₀ (by rw [hw]; rfl) ha).mono hold
  delivered := h.delivered

theorem send_inv {σ : Session U} (h : σ.Inv) (u : U) (l : IrcLine) :
    Ensures (σ.step (.send u l)) Session.Inv (fun _ => True) := by
  refine Ensures.bind (queryStackRecord_ensures σ.stack u l) ?_
  rintro ⟨b, stack⟩ hs
  dsimp only at hs ⊢
  rcases hs with rfl | ⟨rfl, hno⟩
  · have hne : (handleDefault σ.stack u (rowOf l)).next ≠ σ.stack.next := Nat.succ_ne_self _
    rw [if_neg hne]
    refine h.snoc (h.ordered.handleDefault u _) (Nat.le_succ _)
      (fun e he => List.mem_append_left _ he) ?_ (fun _ hn => nomatch hn)
    rintro r ⟨⟩
    exact ⟨le_rfl, Nat.lt_succ_self _, List.mem_append_right _ (List.mem_singleton_self _)⟩
  · rw [if_pos rfl]
    exact h.snoc h.ordered le_rfl (fun e he => he) (fun r hr => nomatch hr)
      (fun hr => absurd hr hno)

/-! ### Going on -/

theorem done_inv {σ : Session U} (h : σ.Inv) :
    Ensures (σ.step .done) Session.Inv (fun _ => True) :=
  { ordered := h.ordered
    sorted := h.sorted.sublist (List.tail_sublist _)
    below := fun q hq => h.below q (List.mem_of_mem_tail hq)
    entered := fun q hq => h.entered q (List.mem_of_mem_tail hq)
    tail := fun q hq => h.tail q (List.mem_of_mem_tail hq)
    head := fun q hq _ => h.tail q (List.mem_of_mem_head? hq)
    delivered := h.delivered }

/-! ### Answering -/

/-- The first entry that lists a numeric decides.  Every entry stays but, perhaps, that one: it
stays when the numeric is an in-between reply to its command. -/
theorem queryStackMatchResponse_found {stack : QueryStack U} (l : IrcLine) {e : Entry U}
    (he : stack.entries.find? (fun e => e.query.lists (ircLineRespcode l)) = some e) :
    Ensures (queryStackMatchResponse stack l)
      (fun x => x.1 = some e.userdata ∧ (stack.Ordered → x.2.Ordered) ∧
        x.2.next = stack.next ∧ ∀ e' ∈ stack.entries,
          (e'.ref = e.ref → isReply e.query.replies (ircLineRespcode l) = true) →
            e' ∈ x.2.entries)
      (fun _ => True) := by
  unfold queryStackMatchResponse
  cases l.args with
  | nil => trivial
  | cons a as =>
      simp only [he]
      split
      · exact ⟨rfl, fun h => h, rfl, fun e' he' _ => he'⟩
      · next hno =>
        exact ⟨rfl, fun h => h.remove e, rfl, fun e' he' hk =>
          QueryStack.mem_remove he' fun heq => hno (hk heq)⟩

/-- The entry of the command being answered, when its answer is in turn. -/
theorem Session.Inv.own_entry {σ : Session U} (h : σ.Inv) {p : Sent U} {l : IrcLine}
    (hp : p ∈ σ.waiting.head?) (ht : σ.InTurn (.reply l)) :
    ∃ r, p.entry = some r ∧ ⟨r, rowOf p.line, p.client⟩ ∈ σ.stack.entries := by
  have hrec := ht.recorded l rfl p hp
  obtain ⟨r, hr⟩ := Option.ne_none_iff_exists'.mp
    (h.entered p (List.mem_of_mem_head? hp) hrec)
  exact ⟨r, hr, h.head p hp (ht.unfinished l rfl p hp) r hr⟩

/-- The first entry that lists a numeric in turn is not younger than the entry of the command
being answered, and it is the asking client's: it is that entry, or left over from that client. -/
theorem Session.Inv.first_entry {σ : Session U} (h : σ.Inv) {p : Sent U} {l : IrcLine} {r : ℕ}
    (hp : p ∈ σ.waiting.head?) (ht : σ.InTurn (.reply l)) (hr : p.entry = some r)
    (hmem : ⟨r, rowOf p.line, p.client⟩ ∈ σ.stack.entries)
    (hn : (rowOf p.line).lists (ircLineRespcode l) = true) {e : Entry U}
    (he : σ.stack.entries.find? (fun e => e.query.lists (ircLineRespcode l)) = some e) :
    e.ref ≤ r ∧ e.userdata = p.client := by
  have hle : e.ref ≤ r := h.ordered.first_le he hmem hn
  refine ⟨hle, ?_⟩
  have hmem' : e ∈ σ.stack.entries := List.mem_of_find?_eq_some he
  by_cases hre : e.ref = r
  · rw [h.ordered.eq_of_ref hmem' hmem hre]
  · refine ht.unclaimed l rfl p hp e hmem' ?_ (by simpa using List.find?_some he)
    -- the commands after `p` have younger entries than `p`
    intro q hq hqe
    obtain ⟨qs, hw⟩ : ∃ qs, σ.waiting = p :: qs := by
      cases hw : σ.waiting with
      | nil => rw [hw] at hp; cases hp
      | cons q₀ qs => rw [hw] at hp; cases hp; exact ⟨qs, rfl⟩
    have hs := h.sorted
    rw [hw] at hq hs
    rcases List.mem_cons.mp hq with rfl | hq
    · rw [hr] at hqe
      exact hre (Option.some.inj hqe).symm
    · have := List.rel_of_pairwise_cons hs hq r hr e.ref hqe
      omega

theorem reply_inv {σ : Session U} (h : σ.Inv) {l : IrcLine} (ha : σ.Allowed (.reply l))
    (ht : σ.InTurn (.reply l)) : Ensures (σ.step (.reply l)) Session.Inv (fun _ => True) := by
  obtain ⟨p, hp, hn⟩ := ha.listed l rfl
  obtain ⟨r, hr, hmem⟩ := h.own_entry hp ht
  obtain ⟨e, he⟩ : ∃ e,
      σ.stack.entries.find? (fun e => e.query.lists (ircLineRespcode l)) = some e :=
    Option.isSome_iff_exists.mp (List.find?_isSome.mpr ⟨_, hmem, hn⟩)
  obtain ⟨hle, hu⟩ := h.first_entry hp ht hr hmem hn he
  have hlater : ∀ q ∈ σ.waiting.tail, ∀ r', q.entry = some r' → r < r' := by
    intro q hq r' hr'
    have hs := h.sorted
    cases hw : σ.waiting with
    | nil => rw [hw] at hp; cases hp
    | cons q₀ qs =>
        rw [hw] at hp hs hq
        cases hp
        exact List.rel_of_pairwise_cons hs hq r hr r' hr'
  refine Ensures.bind (queryStackMatchResponse_found l he) ?_
  rintro ⟨c, stack⟩ ⟨rfl, ho, hnext, hkeep⟩
  dsimp only at ho hnext hkeep ⊢
  refine
    { ordered := ho h.ordered
      sorted := h.sorted
      below := ?_
      entered := h.entered
      tail := ?_
      head := ?_
      delivered := ?_ }
  · intro q hq r' hr'
    rw [hnext]
    exact h.below q hq r' hr'
  · intro q hq r' hr'
    have hlt := hlater q hq r' hr'
    exact hkeep _ (h.tail q hq r' hr') fun heq => absurd heq (by dsimp only; omega)
  · intro q hq hans r' hr'
    have hin : isReply (rowOf q.line).replies (ircLineRespcode l) = true :=
      hans _ (List.mem_append_right _ (List.mem_singleton_self _))
    cases Option.mem_unique hp hq
    have hmem' := h.head p hp (fun n hn => hans n (List.mem_append_left _ hn)) r' hr'
    refine hkeep _ hmem' fun heq => ?_
    rw [h.ordered.eq_of_ref (List.mem_of_find?_eq_some he) hmem' heq.symm]
    exact hin
  · intro d hd
    rcases List.mem_append.mp hd with hd | hd
    · exact h.delivered d hd
    · rw [Option.mem_def.mp hp] at hd
      cases List.mem_singleton.mp hd
      rw [hu]

/-! ### Runs -/

theorem Session.Inv.step {σ : Session U} (h : σ.Inv) (e : Event U)
    (he : σ.Allowed e ∧ σ.InTurn e) : Ensures (σ.step e) Session.Inv (fun _ => True) := by
  cases e with
  | send u l => exact send_inv h u l
  | reply l => exact reply_inv h he.1 he.2
  | done => exact done_inv h

/-- **Redirection.** In every run in which numerics come in turn, each one that answers a command
is handed to the client that sent the command. -/
theorem reachable_delivered {σ : Session U}
    (h : Reach Session.step (fun σ e => σ.Allowed e ∧ σ.InTurn e) (Session.start U) σ) :
    ∀ d ∈ σ.delivered, d.2 = some d.1 :=
  (h.invariant start_inv fun _ e hi he => hi.step e he).delivered

/-- Two clients, the second of which asks while the first waits. -/
theorem reachable_delivered_whois : ∃ σ,
    Reach Session.step (fun σ e => σ.Allowed e ∧ σ.InTurn e) (Session.start ℕ) σ ∧
    σ.delivered = [(0, some 0), (0, some 0), (1, some 1)] ∧
    ∀ d ∈ σ.delivered, d.2 = some d.1 := by
  have run : (admittedRun Session.step (fun σ e => σ.Allowed e ∧ σ.InTurn e) (Session.start ℕ)
      [.send 0 (command ["WHOIS", "nick"]), .send 1 (command ["PRIVMSG", "nobody", "hi"]),
        .reply (command ["311"]), .reply (command ["318"]), .done,
        .reply (command ["401"])]).map (fun σ => σ.delivered) =
      some [(0, some 0), (0, some 0), (1, some 1)] := by
    decide +kernel
  obtain ⟨σ, hσ, hd⟩ := Option.map_eq_some_iff.mp run
  have hr := Reach.refl.of_admittedRun hσ
  exact ⟨σ, hr, hd, reachable_delivered hr⟩

/-- A message of the first client was taken in silence.  The second client's message goes to no
one, and the first client is told so. -/
theorem delivered_to_wrong_client :
    ¬∀ (U : Type) (σ : Session U), Reach Session.step Session.Allowed (Session.start U) σ →
      ∀ d ∈ σ.delivered, d.2 = some d.1 := by
  intro h
  have run : (admittedRun Session.step Session.Allowed (Session.start ℕ)
      [.send 0 (command ["PRIVMSG", "#c", "hi"]), .done,
        .send 1 (command ["PRIVMSG", "nobody", "hi"]), .reply (command ["401"])]).map
        (fun σ => σ.delivered) = some [(1, some 0)] := by
    decide +kernel
  obtain ⟨σ, hσ, hd⟩ := Option.map_eq_some_iff.mp run
  have hm : (1, some 0) ∈ σ.delivered := by
    rw [hd]
    exact List.mem_singleton_self _
  cases h ℕ σ (Reach.refl.of_admittedRun hσ) _ hm

end Ctrlproxy.Redirect
