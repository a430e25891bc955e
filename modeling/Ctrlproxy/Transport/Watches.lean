import Ctrlproxy.Transport.Iochannel

/-!
# Transport — the watch that waits for the channel

`outgoing_id` is meant to be the one `G_IO_OUT` watch that is registered.  `Watched` says so, and
says what is empty without a watch and without a channel.  A line whose write and whose flush both
have to wait registers two watches and remembers the second: `reachable_watched` is that every run
without such a line keeps `Watched`, and that such a line breaks it at once.
-/

namespace Ctrlproxy.Transport
open Outcome

/-! ### Calls -/

/-- What is called on a transport.  `transport_send_queue` is called by the main loop for a watch;
`receive` is the end of the `G_IO_IN` watch, `handle_transport_receive` returning `FALSE`.  The lines
that a callback of the transport sends are calls of their own: where `hangup` is called, nothing
follows it but the end of the watch. -/
inductive Call (L : Type) where
  | sendLine (l : L) (write flush : GIOStatus) (hangup : Hangup)
  | sendQueue (watch : ℕ) (writes flushes : ℕ → GIOStatus) (hangup : Hangup)
  | receive
  | disconnect

variable {L : Type}

namespace Iochannel

def call (s : Iochannel L) : Call L → Except Fault (Iochannel L)
  | .sendLine l write flush hangup => do
      let (_, s) ← s.transportSendLine hangup l write flush
      pure s
  | .sendQueue watch writes flushes hangup => s.dispatch hangup watch writes flushes
  | .receive => .ok { s with inWatches := s.inWatches.erase s.incomingId }
  | .disconnect => s.transportDisconnect

/-- A callback is called while its watch is registered. -/
def Calls (s : Iochannel L) : Call L → Prop
  | .sendLine .. => True
  | .sendQueue watch _ _ _ => watch ∈ s.outWatches
  | .receive => s.incomingId ∈ s.inWatches
  | .disconnect => True

/-- A line is written at once, and its write and its flush both have to wait. -/
def WaitsTwice (s : Iochannel L) : Call L → Prop
  | .sendLine _ write flush _ =>
      s.isConnected = true ∧ s.outgoingId = 0 ∧ write = .again ∧ flush = .again
  | _ => False

/-- `outgoing_id` is the watch that is registered; without one nothing waits, and without a channel
there is none. -/
structure Watched (s : Iochannel L) : Prop where
  one : s.outWatches.length ≤ 1
  id : ∀ w, w ∈ s.outWatches ↔ s.outgoingId ≠ 0 ∧ w = s.outgoingId
  idle : s.outgoingId = 0 → s.eof = false → s.pendingLines = []
  gone : s.incoming = false → s.inWatches = [] ∧ s.outWatches = []

/-! ### The invariant -/

/-- What `outgoing_id` says is registered. -/
def outgoing (s : Iochannel L) : List ℕ := if s.outgoingId = 0 then [] else [s.outgoingId]

/-- The watches are the ones the transport knows. -/
structure Kept (s : Iochannel L) : Prop where
  out : s.outWatches = s.outgoing
  inw : s.inWatches = [] ∨ s.inWatches = [s.incomingId]
  idle : s.outgoingId = 0 → s.eof = false → s.pendingLines = []
  gone : s.incoming = false → s.inWatches = [] ∧ s.outgoingId = 0
  ids : s.nextId ≠ 0

variable {s : Iochannel L}

theorem outgoing_of_zero (h : s.outgoingId = 0) : s.outgoing = [] := if_pos h

theorem outgoing_of_ne (h : s.outgoingId ≠ 0) : s.outgoing = [s.outgoingId] := if_neg h

theorem Kept.watched (h : s.Kept) : s.Watched := by
  by_cases h0 : s.outgoingId = 0
  · have hout : s.outWatches = [] := h.out.trans (outgoing_of_zero h0)
    exact ⟨by simp [hout], by simp [hout, h0], h.idle, fun hin => ⟨(h.gone hin).1, hout⟩⟩
  · have hout : s.outWatches = [s.outgoingId] := h.out.trans (outgoing_of_ne h0)
    exact ⟨by simp [hout], by simp [hout, h0], h.idle, fun hin => absurd (h.gone hin).2 h0⟩

theorem activated_kept : (activated L).Kept :=
  ⟨rfl, .inr rfl, fun _ _ => rfl, nofun, nofun⟩

/-! ### What a call keeps -/

theorem Kept.reallyDisconnect (h : s.Kept) (h0 : s.outgoingId = 0) :
    Ensures s.reallyDisconnect Kept fun _ => True := by
  unfold Iochannel.reallyDisconnect
  split
  · have hin : s.inWatches.erase s.incomingId = [] := by
      rcases h.inw with hin | hin <;> simp [hin]
    exact ⟨by simpa [h0, outgoing] using h.out, .inl hin, h.idle, fun _ => ⟨hin, h0⟩, h.ids⟩
  · trivial

theorem Kept.transportDisconnect (h : s.Kept) : Ensures s.transportDisconnect Kept fun _ => True := by
  unfold Iochannel.transportDisconnect
  split
  · have hp : Kept { s with pendingDisconnect := true } := ⟨h.out, h.inw, h.idle, h.gone, h.ids⟩
    unfold disconnect
    dsimp only
    split
    · exact hp.reallyDisconnect ‹_›
    · exact hp
  · exact h

theorem Kept.hangup (h : s.Kept) (g : Hangup) : Ensures (s.hangup g) Kept fun _ => True := by
  cases g with
  | keeps => exact h
  | disconnects => exact h.transportDisconnect

/-- A watch is added while there is none. -/
theorem Kept.addWatch (h : s.Kept) (h0 : s.outgoingId = 0) (hin : s.incoming = true) (q : List L) :
    Kept { s.addWatch with pendingLines := q } where
  out := by
    have hout : s.outWatches = [] := h.out.trans (outgoing_of_zero h0)
    rw [outgoing_of_ne h.ids]
    simp [Iochannel.addWatch, hout]
  inw := h.inw
  idle := fun h0 => absurd h0 h.ids
  gone := fun hno => by cases hin.symm.trans hno
  ids := Nat.succ_ne_zero _

theorem Kept.flushSent (h : s.Kept) (flush : GIOStatus)
    (hadd : flush = .again → s.outgoingId = 0 ∧ s.incoming = true) :
    Ensures (s.flushSent flush) (fun r => r.2.Kept) fun _ => True := by
  cases flush with
  | eof => trivial
  | normal => exact h
  | error => exact h
  | again => exact h.addWatch (hadd rfl).1 (hadd rfl).2 _

/-- A line whose write has to wait and whose flush does not. -/
theorem Kept.sendLine (h : s.Kept) (g : Hangup) (l : L) {write flush : GIOStatus}
    (hin : s.incoming = true)
    (hno : ¬ (s.outgoingId = 0 ∧ write = .again ∧ flush = .again)) :
    Ensures (s.sendLine g l write flush) (fun r => r.2.Kept) fun _ => True := by
  unfold Iochannel.sendLine
  by_cases h0 : s.outgoingId = 0
  · rw [if_neg (not_not.mpr h0)]
    unfold ircSendLine
    rw [if_pos hin]
    cases write with
    | again =>
        exact (h.addWatch h0 hin _).flushSent flush fun hf => absurd ⟨h0, rfl, hf⟩ hno
    | eof =>
        have he : Kept { s with eof := true } :=
          ⟨h.out, h.inw, fun _ hf => (by cases hf), h.gone, h.ids⟩
        exact (he.hangup g).bind fun _ hr => hr
    | error =>
        exact ⟨h.out, h.inw, h.idle, h.gone, h.ids⟩
    | normal =>
        have hs : Kept { s with accepted := s.accepted ++ [l] } :=
          ⟨h.out, h.inw, h.idle, h.gone, h.ids⟩
        exact hs.flushSent flush fun _ => ⟨h0, hin⟩
  · rw [if_pos h0]
    exact ⟨h.out, h.inw, fun hz => absurd hz h0, h.gone, h.ids⟩

/-- What holds while the queue is sent from the callback of a watch: the channel is there, and
the watch is the one that is registered. -/
structure Sending (watch : ℕ) (s : Iochannel L) : Prop where
  out : s.outWatches = [watch]
  id : s.outgoingId = watch
  inw : s.inWatches = [] ∨ s.inWatches = [s.incomingId]
  incoming : s.incoming = true
  ne : watch ≠ 0
  ids : s.nextId ≠ 0

/-- After the callback of a watch, when it returned `TRUE` or the watch is dropped. -/
def Sent (watch : ℕ) (r : Bool × Iochannel L) : Prop :=
  Kept (if r.1 then r.2 else { r.2 with outWatches := r.2.outWatches.erase watch })

/-- The callback returned `TRUE`: the watch stays. -/
theorem Sending.stays {watch : ℕ} (h : s.Sending watch) : Sent watch (true, s) where
  out := by rw [if_pos rfl, outgoing_of_ne (h.id ▸ h.ne), h.id]; exact h.out
  inw := h.inw
  idle := fun h0 => absurd (h.id.symm.trans h0) h.ne
  gone := fun hno => by cases h.incoming.symm.trans hno
  ids := h.ids

/-- `outgoing_id` is zero, and the callback is about to return `FALSE`. -/
structure Ending (watch : ℕ) (s : Iochannel L) : Prop where
  out : s.outWatches = [watch]
  id : s.outgoingId = 0
  inw : s.inWatches = [] ∨ s.inWatches = [s.incomingId]
  idle : s.eof = false → s.pendingLines = []
  gone : s.incoming = false → s.inWatches = []
  ids : s.nextId ≠ 0

theorem Ending.drops {watch : ℕ} (h : s.Ending watch) : Sent watch (false, s) where
  out := by
    show s.outWatches.erase watch = s.outgoing
    rw [outgoing_of_zero h.id, h.out]
    simp
  inw := h.inw
  idle := fun _ => h.idle
  gone := fun hno => ⟨h.gone hno, h.id⟩
  ids := h.ids

theorem Ending.reallyDisconnect {watch : ℕ} (h : s.Ending watch) :
    Ensures s.reallyDisconnect (Ending watch) fun _ => True := by
  unfold Iochannel.reallyDisconnect
  split
  · have hin : s.inWatches.erase s.incomingId = [] := by
      rcases h.inw with hin | hin <;> simp [hin]
    refine ⟨?_, h.id, .inl hin, h.idle, fun _ => hin, h.ids⟩
    rw [if_neg (not_not.mpr h.id)]
    exact h.out
  · trivial

theorem Ending.hangup {watch : ℕ} (h : s.Ending watch) (g : Hangup) :
    Ensures (s.hangup g) (Ending watch) fun _ => True := by
  cases g with
  | keeps => exact h
  | disconnects =>
      unfold Iochannel.hangup Iochannel.transportDisconnect
      dsimp only
      split
      · unfold disconnect
        dsimp only
        rw [if_pos h.id]
        exact Ending.reallyDisconnect ⟨h.out, h.id, h.inw, h.idle, h.gone, h.ids⟩
      · exact h

/-- The loop over the queue leaves the watch alone until it ends with the end of the file. -/
theorem Sending.queueLoop {watch : ℕ} (g : Hangup) {writes flushes : ℕ → GIOStatus} {i : ℕ}
    {q : List L} (hq : s.pendingLines = q) (h : s.Sending watch) :
    Ensures (queueLoop g writes flushes i q s)
      (fun r => r.1 = none ∧ r.2.Sending watch ∧ r.2.pendingLines = [] ∨
        r.1 = some true ∧ r.2.Sending watch ∨ r.1 = some false ∧ r.2.Ending watch)
      fun _ => True := by
  induction q generalizing i s with
  | nil => exact .inl ⟨rfl, h, hq⟩
  | cons l rest ih =>
      have hnext : ∀ {s' : Iochannel L}, s'.pendingLines = rest → s'.Sending watch →
          Ensures (afterFlush (flushes (i + 1)) s' (Iochannel.queueLoop g writes flushes (i + 1) rest s'))
            (fun r => r.1 = none ∧ r.2.Sending watch ∧ r.2.pendingLines = [] ∨
              r.1 = some true ∧ r.2.Sending watch ∨ r.1 = some false ∧ r.2.Ending watch)
            fun _ => True := by
        intro s' hq' hs'
        cases flushes (i + 1) with
        | eof => trivial
        | again => exact .inr (.inl ⟨rfl, hs'⟩)
        | normal => exact ih hq' hs'
        | error => exact ih hq' hs'
      unfold Iochannel.queueLoop ircSendLine
      dsimp only
      rw [if_pos h.incoming]
      cases writes i with
      | again => exact .inr (.inl ⟨rfl, h.out, h.id, h.inw, h.incoming, h.ne, h.ids⟩)
      | eof =>
          have hend : Ending watch { s with pendingLines := rest, eof := true, outgoingId := 0 } :=
            ⟨h.out, rfl, h.inw, fun hf => (by cases hf),
              fun hno => (by cases h.incoming.symm.trans hno), h.ids⟩
          exact (hend.hangup g).bind fun t ht => .inr (.inr ⟨rfl, ht⟩)
      | normal => exact hnext rfl ⟨h.out, h.id, h.inw, h.incoming, h.ne, h.ids⟩
      | error => exact hnext rfl ⟨h.out, h.id, h.inw, h.incoming, h.ne, h.ids⟩

theorem Sending.transportSendQueue {watch : ℕ} (h : s.Sending watch) (g : Hangup)
    (writes flushes : ℕ → GIOStatus) :
    Ensures (s.transportSendQueue g writes flushes) (Sent watch) fun _ => True := by
  unfold Iochannel.transportSendQueue
  rw [if_pos h.incoming]
  refine Ensures.bind (Sending.queueLoop g rfl h) ?_
  rintro ⟨early, t⟩ (⟨rfl, ht, hpend⟩ | ⟨rfl, ht⟩ | ⟨rfl, ht⟩)
  · dsimp only
    split
    · exact ht.stays
    · have hend : Ending watch { t with outgoingId := 0 } :=
        ⟨ht.out, rfl, ht.inw, fun _ => hpend, fun hno => (by cases ht.incoming.symm.trans hno),
          ht.ids⟩
      split
      · exact hend.reallyDisconnect.bind fun u hu => hu.drops
      · exact hend.drops
  · exact ht.stays
  · exact ht.drops

/-- The callback of a registered watch. -/
theorem Kept.dispatch (h : s.Kept) (g : Hangup) {watch : ℕ} (writes flushes : ℕ → GIOStatus)
    (hw : watch ∈ s.outWatches) :
    Ensures (s.dispatch g watch writes flushes) Kept fun _ => True := by
  by_cases h0 : s.outgoingId = 0
  · rw [h.out, outgoing_of_zero h0] at hw
    cases hw
  · have hout : s.outWatches = [s.outgoingId] := h.out.trans (outgoing_of_ne h0)
    have hid : s.outgoingId = watch := by
      rw [hout] at hw
      exact (List.mem_singleton.mp hw).symm
    have hin : s.incoming = true := by
      by_contra hno
      exact h0 (h.gone (Bool.not_eq_true _ ▸ hno)).2
    have hsend : s.Sending watch := ⟨hid ▸ hout, hid, h.inw, hin, hid ▸ h0, h.ids⟩
    exact (hsend.transportSendQueue g writes flushes).bind fun r hr => hr

theorem Kept.call (h : s.Kept) {c : Call L} (hc : s.Calls c) (hno : ¬ s.WaitsTwice c) :
    Ensures (s.call c) Kept fun _ => True := by
  cases c with
  | sendLine l write flush g =>
      unfold Iochannel.call transportSendLine
      dsimp only
      split
      · have hin : s.incoming = true := (Bool.and_eq_true_iff.mp ‹_›).1
        exact (h.sendLine g l hin fun hw => hno ⟨‹_›, hw⟩).bind fun r hr => hr
      · exact h
  | sendQueue watch writes flushes g => exact h.dispatch g writes flushes hc
  | receive =>
      have hin : s.inWatches.erase s.incomingId = [] := by
        rcases h.inw with hin | hin <;> simp [hin]
      exact ⟨h.out, .inl hin, h.idle, fun hno => ⟨hin, (h.gone hno).2⟩, h.ids⟩
  | disconnect => exact h.transportDisconnect

/-- A line that waits twice leaves two watches. -/
theorem Kept.waitsTwice (h : s.Kept) {c : Call L} (hw : s.WaitsTwice c) :
    Ensures (s.call c) (fun t => t.outWatches.length = 2) fun _ => True := by
  cases c with
  | sendLine l write flush g =>
      obtain ⟨hconn, h0, rfl, rfl⟩ := hw
      have hin : s.incoming = true := (Bool.and_eq_true_iff.mp hconn).1
      have hout : s.outWatches = [] := h.out.trans (outgoing_of_zero h0)
      unfold Iochannel.call transportSendLine Iochannel.sendLine ircSendLine
      dsimp only
      rw [if_pos hconn, if_neg (not_not.mpr h0), if_pos hin]
      show (s.outWatches ++ [s.nextId] ++ [s.nextId + 1]).length = 2
      rw [hout]
      rfl
  | sendQueue watch writes flushes g => exact hw.elim
  | receive => exact hw.elim
  | disconnect => exact hw.elim

/-- **One watch waits for the channel.** In every run in which no line waits twice, whatever the
channel answers and whatever is called back: at most one watch is registered, `outgoing_id` is that
watch, nothing waits without it unless a write reported the end of the file, and no watch is left
once the channel is gone.  The next call keeps this exactly when its line does not wait twice. -/
theorem reachable_watched
    (hr : Reach call (fun s c => s.Calls c ∧ ¬ s.WaitsTwice c) (activated L) s) :
    s.Watched ∧ ∀ c s', s.Calls c → s.call c = .ok s' → (s'.Watched ↔ ¬ s.WaitsTwice c) := by
  have hs : s.Kept := hr.invariant activated_kept fun s c hs hc => hs.call hc.1 hc.2
  refine ⟨hs.watched, fun c s' hc hs' => ⟨fun hw ht => ?_, fun hno => ?_⟩⟩
  · have h2 : s'.outWatches.length = 2 := (hs.waitsTwice ht).of_ok hs'
    exact absurd hw.one (by omega)
  · exact ((hs.call hc hno).of_ok hs').watched

/-- A line that has to wait, and the callback that sends it. -/
theorem reachable_watched_callback : ∃ s : Iochannel ℕ,
    Reach call (fun s c => s.Calls c ∧ ¬ s.WaitsTwice c) (activated ℕ) s ∧
    s.accepted = [7] ∧ s.Watched := by
  let s₁ : Iochannel ℕ := { (activated ℕ).addWatch with pendingLines := [7] }
  have c₁ : (activated ℕ).Calls (.sendLine 7 .again .normal .keeps) := trivial
  have w₁ : ¬ (activated ℕ).WaitsTwice (.sendLine 7 .again .normal .keeps) := by
    rintro ⟨-, -, -, hf⟩
    cases hf
  have c₂ : s₁.Calls (.sendQueue 2 (fun _ => .normal) (fun _ => .normal) .keeps) :=
    List.mem_singleton_self _
  have w₂ : ¬ s₁.WaitsTwice (.sendQueue 2 (fun _ => .normal) (fun _ => .normal) .keeps) := id
  have h₁ : Reach call (fun s c => s.Calls c ∧ ¬ s.WaitsTwice c) (activated ℕ) s₁ :=
    .step .refl ⟨c₁, w₁⟩ rfl
  have h₂ := h₁.step ⟨c₂, w₂⟩ rfl
  exact ⟨_, h₂, rfl, (reachable_watched h₂).1⟩

/-- The first line waits twice, and the second of its watches sends it.  After a disconnect the
first watch is still there. -/
theorem watch_outlives_channel :
    ¬ ∀ s : Iochannel ℕ, Reach call (fun s c => s.Calls c) (activated ℕ) s → s.Watched := by
  intro h
  let s₁ : Iochannel ℕ := { (activated ℕ).addWatch.addWatch with pendingLines := [7] }
  have c₁ : (activated ℕ).Calls (.sendLine 7 .again .again .keeps) := trivial
  have c₂ : s₁.Calls (.sendQueue 3 (fun _ => .normal) (fun _ => .normal) .keeps) :=
    List.mem_cons_of_mem _ (List.mem_singleton_self _)
  have h₁ : Reach call (fun s c => s.Calls c) (activated ℕ) s₁ := .step .refl c₁ rfl
  have h₂ := h₁.step c₂ rfl
  have h₃ := h₂.step (show Calls _ .disconnect from trivial) rfl
  exact absurd ((h _ h₃).gone rfl).2 (by decide)

end Iochannel

end Ctrlproxy.Transport
