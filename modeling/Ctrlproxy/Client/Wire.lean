import Ctrlproxy.Base.RoundTrip
import Ctrlproxy.Client.Mirror

/-!
# Client — constructed lines on the wire

A line built from an argument list does not say whether its last argument needs a colon; that
`requires_colon` decides by the command.  A line whose command and middle arguments can be told from
what is around them survives, if its last argument can be, too, wherever no colon is printed.
-/

namespace Ctrlproxy

instance (a : Str) : Decidable (Bare a) := inferInstanceAs (Decidable (_ ∧ _))

/-- How the senders build a line. -/
inductive Built : IrcLine → Prop
  | line (hostmask : Option Str) (ap : List (Option Str)) : Built (vircParseLine hostmask ap)
  | response (src : Option Str) (target : Str) (response : ℕ) (ap : List (Option Str)) :
      Built (vircParseResponse src target response ap)

/-- A command, arguments without a space or a colon in front, and a last argument, all without line
ends. -/
structure Sendable (l : IrcLine) : Prop where
  origin : ∀ o ∈ l.origin, Word o
  command : ∃ cmd ∈ l.args.head?, cmd ≠ [] ∧ Bare cmd
  middle : ∀ a ∈ l.args.tail.dropLast, Bare a
  last : ∀ a ∈ l.args.getLast?, NoEol a

/-- Arguments that end in one behind a colon. -/
theorem spelled_colon {mid : List Str} {last : Str} (hmid : ∀ a ∈ mid, Bare a) (hlast : NoEol last) :
    Spelled (mid ++ [last]) .withColon := by
  induction mid with
  | nil => exact .colon hlast
  | cons a mid ih =>
      have ha := hmid a List.mem_cons_self
      exact .cons ha.1 ha.2 (ih fun b hb => hmid b (List.mem_cons_of_mem _ hb))

theorem spelled_bare {as : List Str} (h : ∀ a ∈ as, Bare a) : Spelled as .withoutColon := by
  induction as with
  | nil => exact .nil
  | cons a as ih =>
      have ha := h a List.mem_cons_self
      exact .cons ha.1 ha.2 (ih fun b hb => h b (List.mem_cons_of_mem _ hb))

section
variable {l : IrcLine}

/-- The command is the last argument, or others and the last one follow it. -/
theorem Sendable.cases (h : Sendable l) : ∃ cmd, cmd ≠ [] ∧ Bare cmd ∧ (l.args = [cmd] ∨
    ∃ mid last, l.args = cmd :: (mid ++ [last]) ∧ (∀ a ∈ mid, Bare a) ∧ NoEol last) := by
  obtain ⟨cmd, hcmd, hne, hbare⟩ := h.command
  obtain ⟨as, has⟩ := List.head?_eq_some_iff.mp hcmd
  refine ⟨cmd, hne, hbare, ?_⟩
  rcases List.eq_nil_or_concat as with rfl | ⟨mid, last, rfl⟩
  · exact .inl has
  · rw [List.concat_eq_append] at has
    refine .inr ⟨mid, last, has, fun a ha => h.middle a ?_, h.last last ?_⟩
    · rw [has, List.tail_cons, List.dropLast_concat]
      exact ha
    · rw [has, ← List.cons_append, List.getLast?_concat]
      rfl

/-- A line survives if its arguments behind the command can be told with the colon it gets. -/
theorem Sendable.survives (h : Sendable l) {cmd : Str} {as : List Str} (hargs : l.args = cmd :: as)
    (hne : cmd ≠ []) (hbare : Bare cmd) (hrest : Spelled as (printedColon l)) : Survives l :=
  ⟨fun o ho hspace => (h.origin o ho _ hspace).1 rfl, cmd, as, hargs, hbare.1, hrest,
    fun _ => hbare.2, fun _ hnil => absurd hnil hne⟩

/-- The origin and the arguments of a line that survives are read from its text. -/
theorem Survives.string {l : IrcLine} (h : Survives l) :
    (ircParseLine (ircLineString l)).map (fun r => (r.origin, r.args)) =
      some (l.origin, l.args) := by
  have hback : Ctrlproxy.received l = some (onWire l) := h.received
  rw [Ctrlproxy.received, ircLineStringNl, ircParseLine_append_eol] at hback
  rw [hback]
  rfl

/-- **Constructed lines on the wire.** A line with a colon in front of its last argument is parsed back
to the same origin and arguments; one without is, if its last argument has no space and begins with no
colon. -/
theorem built_received (_ : Built l) (hl : Sendable l) :
    (requiresColon l = true → 2 ≤ l.argc →
      (ircParseLine (ircLineString l)).map (fun r => (r.origin, r.args)) = some (l.origin, l.args)) ∧
    (requiresColon l = false →
      (∀ a ∈ l.args.getLast?, chr ' ' ∉ a ∧ a.head? ≠ some (chr ':')) →
      (ircParseLine (ircLineString l)).map (fun r => (r.origin, r.args)) =
        some (l.origin, l.args)) := by
  obtain ⟨cmd, hne, hcmd, hargs⟩ := hl.cases
  constructor
  · intro hcolon hlen
    have hmark : printedColon l = .withColon := if_pos ⟨hcolon, hlen⟩
    rcases hargs with hargs | ⟨mid, last, hargs, hmid, hlast⟩
    · rw [IrcLine.argc, hargs] at hlen
      exact absurd hlen (Nat.not_succ_le_self 1)
    · refine (hl.survives hargs hne hcmd ?_).string
      rw [hmark]
      exact spelled_colon hmid hlast
  · intro hcolon hlast
    have hmark : printedColon l = .withoutColon := if_neg fun h => by rw [hcolon] at h; cases h.1
    rcases hargs with hargs | ⟨mid, last, hargs, hmid, heol⟩
    · refine (hl.survives hargs hne hcmd ?_).string
      rw [hmark]
      exact .nil
    · rw [hargs, ← List.cons_append, List.getLast?_concat] at hlast
      obtain ⟨hspace, hhead⟩ := hlast last rfl
      refine (hl.survives hargs hne hcmd ?_).string
      rw [hmark]
      refine spelled_bare fun a ha => ?_
      rcases List.mem_append.mp ha with ha | ha
      · exact hmid a ha
      · rw [List.mem_singleton.mp ha]
        exact ⟨fun b hb => ⟨fun e => hspace (e ▸ hb), heol b hb⟩, hhead⟩

end

/-- A topic with spaces and a colon in front, and a mode change. -/
theorem built_received_topic :
    (ircParseLine (ircLineString (vircParseLine (some (str "s")) [str "TOPIC", str "#c", str ": a b"]))).map
        (fun r => (r.origin, r.args)) =
      some (some (str "s"), [str "TOPIC", str "#c", str ": a b"]) ∧
    (ircParseLine (ircLineString (vircParseLine none [str "MODE", str "#c", str "+v", str "n"]))).map
        (fun r => (r.origin, r.args)) =
      some (none, [str "MODE", str "#c", str "+v", str "n"]) := by
  have topic : Sendable (vircParseLine (some (str "s")) [str "TOPIC", str "#c", str ": a b"]) :=
    ⟨by decide, ⟨str "TOPIC", rfl, by decide⟩, by decide, by decide⟩
  have mode : Sendable (vircParseLine none [str "MODE", str "#c", str "+v", str "n"]) :=
    ⟨by decide, ⟨str "MODE", rfl, by decide⟩, by decide, by decide⟩
  exact ⟨(built_received (.line _ _) topic).1 (by decide) (by decide),
    (built_received (.line _ _) mode).2 (by decide) (by decide)⟩

end Ctrlproxy
