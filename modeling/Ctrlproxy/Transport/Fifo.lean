import Mathlib.Data.List.Nodup
import Mathlib.Data.List.Range
import Ctrlproxy.Transport.Iochannel

/-!
# Transport — lines leave in order

A line that is sent either goes to the channel at once or waits behind the lines that wait already.
`Fifo` says that what the channel accepted, followed by what waits, is what was submitted without
the lines the channel refused.  It needs that nothing waits while no watch is there
(`Session.Flowing`), and `reachable_fifo` is that every run keeps both.
-/

namespace Ctrlproxy.Transport
open Outcome

/-! ### Runs -/

/-- A line and its number among the lines submitted. -/
abbrev Submission := ℕ × IrcLine

/-- A transport and the lines that were submitted to it. -/
structure Session where
  transport : Iochannel Submission
  submitted : List Submission
  deriving DecidableEq

/-- What happens to a transport.  A callback is answered with a status for each of its writes and
flushes. -/
inductive Event where
  | send (line : IrcLine) (write flush : GIOStatus)
  | callback (watch : ℕ) (writes flushes : ℕ → GIOStatus)
  | disconnect

namespace Session

def start : Session := ⟨.activated _, []⟩

def step (h : Hangup) (s : Session) : Event → Except Fault Session
  | .send l write flush => do
      let x := (s.submitted.length, l)
      let (_, t) ← s.transport.sendLine h x write flush
      pure ⟨t, s.submitted ++ [x]⟩
  | .callback watch writes flushes => do
      let t ← s.transport.dispatch h watch writes flushes
      pure { s with transport := t }
  | .disconnect => do
      let t ← s.transport.transportDisconnect
      pure { s with transport := t }

/-- `transport_send_line` sends while the transport is connected, and the callback of a watch is
called while the watch is registered.  A flush reports no end of file. -/
def Admits (s : Session) : Event → Prop
  | .send _ _ flush => s.transport.isConnected = true ∧ flush ≠ .eof
  | .callback watch _ flushes => watch ∈ s.transport.outWatches ∧ ∀ i, flushes i ≠ .eof
  | .disconnect => True

end Session

/-- No write reports the end of the file, and the transport is not torn down. -/
def Event.Undisturbed : Event → Prop
  | .send _ write _ => write ≠ .eof
  | .callback _ writes _ => ∀ i, writes i ≠ .eof
  | .disconnect => False

/-! ### Order -/

section
variable {X : Type} [DecidableEq X] {submitted : List X} {s : Iochannel X}

/-- Accepted and waiting lines are the submitted ones, in order, without the refused. -/
structure Fifo (submitted : List X) (s : Iochannel X) : Prop where
  order : s.accepted ++ s.pendingLines = submitted.filter (· ∉ s.refused)
  refused : ∀ x ∈ s.refused, x ∈ submitted

theorem filter_refuse {as bs rs : List X} {x : X} (hn : submitted.Nodup)
    (h : as ++ x :: bs = submitted.filter (· ∉ rs)) :
    as ++ bs = submitted.filter (· ∉ rs ++ [x]) := by
  have hnd : (as ++ x :: bs).Nodup := h ▸ hn.filter _
  have hx := List.perm_middle.nodup_iff.mp hnd
  have hsplit : submitted.filter (· ∉ rs ++ [x]) = (submitted.filter (· ∉ rs)).filter (· ≠ x) := by
    rw [List.filter_filter]
    refine List.filter_congr fun a _ => ?_
    simp [and_comm]
  rw [hsplit, ← h, List.filter_append, List.filter_cons_of_neg (by simp), ← List.filter_append,
    List.filter_eq_self.mpr]
  intro a ha
  simp only [ne_eq, decide_not, Bool.not_eq_eq_eq_not, Bool.not_true, decide_eq_false_iff_not]
  rintro rfl
  exact (List.nodup_cons.mp hx).1 ha

/-- The line at the head of the queue is accepted. -/
theorem Fifo.accept (h : Fifo submitted s) {x : X} {rest : List X}
    (hs : s.pendingLines = x :: rest) :
    Fifo submitted { s with pendingLines := rest, accepted := s.accepted ++ [x] } where
  order := by
    rw [← h.order, hs]
    exact List.append_assoc _ _ _
  refused := h.refused

/-- The line at the head of the queue is refused. -/
theorem Fifo.refuse (hn : submitted.Nodup) (h : Fifo submitted s) {x : X} {rest : List X}
    (hs : s.pendingLines = x :: rest) :
    Fifo submitted { s with pendingLines := rest, refused := s.refused ++ [x] } where
  order := filter_refuse hn (hs ▸ h.order)
  refused := by
    intro y hy
    rcases List.mem_append.mp hy with hy | hy
    · exact h.refused y hy
    · rw [List.mem_singleton.mp hy]
      have hx : x ∈ s.accepted ++ s.pendingLines :=
        List.mem_append_right _ (hs ▸ List.mem_cons_self)
      exact List.mem_of_mem_filter (h.order ▸ hx)

/-- A line is submitted, and waits behind the others. -/
theorem Fifo.submit (h : Fifo submitted s) {x : X} (hx : x ∉ submitted) :
    Fifo (submitted ++ [x]) { s with pendingLines := s.pendingLines ++ [x] } where
  order := by
    have hr : x ∉ s.refused := fun hm => hx (h.refused x hm)
    rw [List.filter_append, ← h.order, List.filter_cons_of_pos (by simpa using hr)]
    exact (List.append_assoc _ _ _).symm
  refused := fun y hy => List.mem_append_left _ (h.refused y hy)

/-- The transport is connected, and nothing waits without a watch. -/
structure Up (s : Iochannel X) : Prop where
  incoming : s.incoming = true
  connected : s.pendingDisconnect = false
  ids : s.nextId ≠ 0
  idle : s.outgoingId = 0 → s.pendingLines = []

omit [DecidableEq X] in
theorem activated_up : Up (Iochannel.activated X) := ⟨rfl, rfl, nofun, fun _ => rfl⟩

omit [DecidableEq X] in
/-- Whatever waits, with a new watch the transport is up. -/
theorem Up.addWatch (h : Up s) (q : List X) : Up { s.addWatch with pendingLines := q } where
  incoming := h.incoming
  connected := h.connected
  ids := Nat.succ_ne_zero _
  idle := fun h0 => absurd h0 h.ids

theorem flushSent_fifo {flush : GIOStatus} (hf : flush ≠ .eof) (hs : Fifo submitted s)
    (hup : Up s) : Total (s.flushSent flush) fun r => Fifo submitted r.2 ∧ Up r.2 := by
  cases flush with
  | eof => exact absurd rfl hf
  | normal => exact ⟨hs, hup⟩
  | again => exact ⟨⟨hs.order, hs.refused⟩, hup.addWatch _⟩
  | error => exact ⟨hs, hup⟩

/-- A line that is submitted waits, is accepted or is refused. -/
theorem sendLine_fifo (hn : submitted.Nodup) (h : Hangup) {x : X} {write flush : GIOStatus}
    (hw : write ≠ .eof) (hf : flush ≠ .eof)
    (hs : Fifo submitted { s with pendingLines := s.pendingLines ++ [x] }) (hup : Up s) :
    Total (s.sendLine h x write flush) fun r => Fifo submitted r.2 ∧ Up r.2 := by
  unfold Iochannel.sendLine
  by_cases hid : s.outgoingId = 0
  · have hpend := hup.idle hid
    have hhead : s.pendingLines ++ [x] = [x] := by rw [hpend, List.nil_append]
    rw [if_neg (not_not.mpr hid)]
    unfold Iochannel.ircSendLine
    rw [if_pos hup.incoming]
    cases write with
    | eof => exact absurd rfl hw
    | again => exact flushSent_fifo hf ⟨hs.order, hs.refused⟩ (hup.addWatch _)
    | normal =>
        have hacc := hs.accept hhead
        refine flushSent_fifo hf ⟨?_, hacc.refused⟩ ⟨hup.incoming, hup.connected, hup.ids, hup.idle⟩
        show s.accepted ++ [x] ++ s.pendingLines = _
        rw [hpend]
        exact hacc.order
    | error =>
        have href := Fifo.refuse hn hs hhead
        refine ⟨⟨?_, href.refused⟩, hup.incoming, hup.connected, hup.ids, hup.idle⟩
        show s.accepted ++ s.pendingLines = _
        rw [hpend]
        exact href.order
  · rw [if_pos hid]
    exact ⟨hs, hup.incoming, hup.connected, hup.ids, fun h0 => absurd h0 hid⟩

/-- The loop over the queue keeps the order, and ends early only with `TRUE`. -/
theorem queueLoop_fifo (hn : submitted.Nodup) (h : Hangup) {writes flushes : ℕ → GIOStatus}
    (hw : ∀ i, writes i ≠ .eof) (hf : ∀ i, flushes i ≠ .eof) {i : ℕ} {q : List X}
    (hq : s.pendingLines = q) (hs : Fifo submitted s) (hin : s.incoming = true) :
    Total (Iochannel.queueLoop h writes flushes i q s) fun r =>
      Fifo submitted r.2 ∧ r.2.incoming = true ∧ r.2.pendingDisconnect = s.pendingDisconnect ∧
      r.2.outgoingId = s.outgoingId ∧ r.2.nextId = s.nextId ∧
      (r.1 = none ∧ r.2.pendingLines = [] ∨ r.1 = some true ∧ s.pendingLines ≠ []) := by
  induction q generalizing i s with
  | nil => exact ⟨hs, hin, rfl, rfl, rfl, .inl ⟨rfl, hq⟩⟩
  | cons x rest ih =>
      have hne : s.pendingLines ≠ [] := hq ▸ List.cons_ne_nil _ _
      -- what the rest of the queue does, once the head is out of it
      have hrest : ∀ {s' : Iochannel X}, s'.pendingLines = rest → Fifo submitted s' →
          s'.incoming = true → s'.pendingDisconnect = s.pendingDisconnect →
          s'.outgoingId = s.outgoingId → s'.nextId = s.nextId →
          Total (Iochannel.afterFlush (flushes (i + 1)) s'
            (Iochannel.queueLoop h writes flushes (i + 1) rest s')) fun r =>
            Fifo submitted r.2 ∧ r.2.incoming = true ∧
            r.2.pendingDisconnect = s.pendingDisconnect ∧ r.2.outgoingId = s.outgoingId ∧
            r.2.nextId = s.nextId ∧
            (r.1 = none ∧ r.2.pendingLines = [] ∨ r.1 = some true ∧ s.pendingLines ≠ []) := by
        intro s' hq' hs' hin' hd hid hnx
        have hloop : Total (Iochannel.queueLoop h writes flushes (i + 1) rest s') fun r =>
            Fifo submitted r.2 ∧ r.2.incoming = true ∧
            r.2.pendingDisconnect = s.pendingDisconnect ∧ r.2.outgoingId = s.outgoingId ∧
            r.2.nextId = s.nextId ∧
            (r.1 = none ∧ r.2.pendingLines = [] ∨ r.1 = some true ∧ s.pendingLines ≠ []) :=
          (ih (i := i + 1) hq' hs' hin').imp fun r hr => ⟨hr.1, hr.2.1, hr.2.2.1.trans hd,
            hr.2.2.2.1.trans hid, hr.2.2.2.2.1.trans hnx,
            hr.2.2.2.2.2.imp_right fun h => ⟨h.1, hne⟩⟩
        cases hfi : flushes (i + 1) with
        | eof => exact absurd hfi (hf (i + 1))
        | again => exact ⟨hs', hin', hd, hid, hnx, .inr ⟨rfl, hne⟩⟩
        | normal => exact hloop
        | error => exact hloop
      unfold Iochannel.queueLoop Iochannel.ircSendLine
      dsimp only
      rw [if_pos hin]
      cases hwi : writes i with
      | eof => exact absurd hwi (hw i)
      | again =>
          have hsame : { s with pendingLines := x :: rest } = s := by rw [← hq]
          refine ⟨?_, hin, rfl, rfl, rfl, .inr ⟨rfl, hne⟩⟩
          dsimp only
          rw [hsame]
          exact hs
      | normal => exact hrest rfl (hs.accept hq) hin rfl rfl rfl
      | error => exact hrest rfl (Fifo.refuse hn hs hq) hin rfl rfl rfl

theorem transportSendQueue_fifo (hn : submitted.Nodup) (h : Hangup)
    {writes flushes : ℕ → GIOStatus} (hw : ∀ i, writes i ≠ .eof) (hf : ∀ i, flushes i ≠ .eof)
    (hs : Fifo submitted s) (hup : Up s) :
    Total (s.transportSendQueue h writes flushes) fun r => Fifo submitted r.2 ∧ Up r.2 := by
  unfold Iochannel.transportSendQueue
  rw [if_pos hup.incoming]
  refine Ensures.bind (queueLoop_fifo hn h hw hf rfl hs hup.incoming) ?_
  rintro ⟨early, t⟩ ⟨ht, hin, hd, hid, hnx, hend⟩
  dsimp only at ht hin hd hid hnx hend ⊢
  have hids : t.nextId ≠ 0 := hnx ▸ hup.ids
  rcases hend with ⟨rfl, hpend⟩ | ⟨rfl, hne⟩
  · dsimp only
    split
    · exact ⟨ht, hin, hd.trans hup.connected, hids, fun _ => hpend⟩
    · rw [if_neg (by rw [hd, hup.connected]; exact Bool.false_ne_true)]
      exact ⟨⟨ht.order, ht.refused⟩, hin, hd.trans hup.connected, hids, fun _ => hpend⟩
  · exact ⟨ht, hin, hd.trans hup.connected, hids, fun h0 => absurd (hup.idle (hid ▸ h0)) hne⟩

/-- The callback of a watch keeps the order. -/
theorem dispatch_fifo (hn : submitted.Nodup) (h : Hangup) {watch : ℕ}
    {writes flushes : ℕ → GIOStatus} (hw : ∀ i, writes i ≠ .eof) (hf : ∀ i, flushes i ≠ .eof)
    (hs : Fifo submitted s) (hup : Up s) :
    Total (s.dispatch h watch writes flushes) fun t => Fifo submitted t ∧ Up t := by
  unfold Iochannel.dispatch
  refine Ensures.bind (transportSendQueue_fifo hn h hw hf hs hup) ?_
  rintro ⟨ret, t⟩ ⟨ht, hup'⟩
  cases ret with
  | true => exact ⟨ht, hup'⟩
  | false => exact ⟨⟨ht.order, ht.refused⟩, hup'.incoming, hup'.connected, hup'.ids, hup'.idle⟩

end

/-! ### What every run keeps -/

/-- Lines are numbered as they come, they are in order, and the transport is up. -/
structure Session.Flowing (s : Session) : Prop where
  numbered : s.submitted.map Prod.fst = List.range s.submitted.length
  fifo : Fifo s.submitted s.transport
  up : Up s.transport

theorem Session.Flowing.nodup {s : Session} (h : s.Flowing) : s.submitted.Nodup :=
  List.Nodup.of_map Prod.fst (h.numbered ▸ List.nodup_range)

theorem start_flowing : Session.start.Flowing :=
  ⟨rfl, ⟨rfl, fun _ hx => by cases hx⟩, activated_up⟩

section
variable {s : Session} {h : Hangup}

/-- The number of the next line is new. -/
theorem Session.Flowing.fresh (hs : s.Flowing) (l : IrcLine) :
    (s.submitted.length, l) ∉ s.submitted := by
  intro hm
  have hm' := List.mem_map_of_mem (f := Prod.fst) hm
  rw [hs.numbered] at hm'
  exact Nat.lt_irrefl _ (List.mem_range.mp hm')

theorem numbered_snoc {submitted : List Submission} (l : IrcLine)
    (hs : submitted.map Prod.fst = List.range submitted.length) :
    (submitted ++ [(submitted.length, l)]).map Prod.fst =
      List.range (submitted ++ [(submitted.length, l)]).length := by
  rw [List.map_append, hs, List.length_append, List.length_singleton, List.range_succ]
  rfl

theorem Session.Flowing.step (hs : s.Flowing) {e : Event} (ha : s.Admits e) (hu : e.Undisturbed) :
    Total (s.step h e) Session.Flowing := by
  cases e with
  | send l write flush =>
      have hnum := numbered_snoc l hs.numbered
      exact Ensures.bind (sendLine_fifo (List.Nodup.of_map Prod.fst (hnum ▸ List.nodup_range)) h hu
        ha.2 (hs.fifo.submit (hs.fresh l)) hs.up) fun r hr => ⟨hnum, hr.1, hr.2⟩
  | callback watch writes flushes =>
      exact Ensures.bind (dispatch_fifo hs.nodup h hu ha.2 hs.fifo hs.up)
        fun t ht => ⟨hs.numbered, ht.1, ht.2⟩
  | disconnect => exact hu.elim

end

/-- **Lines leave in order.** In every run without an end of the file and without a disconnect,
whatever the channel answers: the lines it accepted, followed by the lines that wait, are the lines
submitted, in their order and once each, without those whose write was an error; and whatever
happens next completes. -/
theorem reachable_fifo {h : Hangup} {s : Session}
    (hr : Reach (Session.step h) (fun s e => s.Admits e ∧ e.Undisturbed) Session.start s) :
    (s.transport.accepted ++ s.transport.pendingLines).Sublist s.submitted ∧
    s.submitted.Nodup ∧
    (∀ x ∈ s.submitted, x ∉ s.transport.accepted ++ s.transport.pendingLines →
      x ∈ s.transport.refused) ∧
    ∀ e, s.Admits e → e.Undisturbed → ∃ s', s.step h e = .ok s' := by
  have hs : s.Flowing := hr.invariant start_flowing fun s e hs he =>
    (hs.step he.1 he.2).mono (fun _ h => h) fun _ h => h.elim
  refine ⟨?_, hs.nodup, fun x hx hno => ?_, fun e ha hu => ?_⟩
  · rw [hs.fifo.order]
    exact List.filter_sublist
  · by_contra hr
    refine hno (hs.fifo.order ▸ List.mem_filter.mpr ⟨hx, ?_⟩)
    simpa using hr
  · obtain ⟨s', hs', -⟩ := (hs.step (h := h) ha hu).exists_ok
    exact ⟨s', hs'⟩

/-- A line has to wait, and another waits behind it, until the callback is called. -/
theorem reachable_fifo_waiting : ∃ s,
    Reach (Session.step .disconnects) (fun s e => s.Admits e ∧ e.Undisturbed) Session.start s ∧
    s.transport.accepted.map Prod.fst = [0, 1] ∧ s.transport.pendingLines = [] ∧
    (s.transport.accepted ++ s.transport.pendingLines).Sublist s.submitted := by
  let ping : IrcLine := ⟨none, [str "PING"], .withoutColon⟩
  let s₁ : Session :=
    ⟨{ (Iochannel.activated _).addWatch with pendingLines := [(0, ping)] }, [(0, ping)]⟩
  let s₂ : Session :=
    ⟨{ s₁.transport with pendingLines := [(0, ping), (1, ping)] }, [(0, ping), (1, ping)]⟩
  have a₁ : Session.start.Admits (.send ping .again .normal) := ⟨rfl, nofun⟩
  have a₂ : s₁.Admits (.send ping .normal .normal) := ⟨rfl, nofun⟩
  have a₃ : s₂.Admits (.callback 2 (fun _ => .normal) fun _ => .normal) :=
    ⟨List.mem_singleton_self _, fun _ => nofun⟩
  have u₁ : (Event.send ping .again .normal).Undisturbed := nofun
  have u₂ : (Event.send ping .normal .normal).Undisturbed := nofun
  have u₃ : (Event.callback 2 (fun _ => .normal) fun _ => .normal).Undisturbed := fun _ => nofun
  have h₂ : Reach (Session.step .disconnects) (fun s e => s.Admits e ∧ e.Undisturbed)
      Session.start s₂ := .step (.step .refl ⟨a₁, u₁⟩ rfl) ⟨a₂, u₂⟩ rfl
  have h₃ := h₂.step ⟨a₃, u₃⟩ rfl
  exact ⟨_, h₃, rfl, rfl, (reachable_fifo h₃).1⟩

end Ctrlproxy.Transport
