import Ctrlproxy.Base.Print
import Ctrlproxy.Client.Channel

/-!
# Client — the names list on the wire

`client_send_nameslist` fills a 353 line with names as arguments of their own, the first of which it
gives a colon.  On the wire this is one argument: the names with a space between them
(`namesLine_wire`).
-/

namespace Ctrlproxy
open Outcome

/-! ### Words -/

/-- A string that stays one argument without a colon in front of it, wherever it stands. -/
def Bare (w : Str) : Prop := Word w ∧ w.head? ≠ some (chr ':')

/-- The names with a space between them. -/
def joinNames : Str → List Str → Str
  | n, [] => n
  | n, m :: ns => n ++ chr ' ' :: joinNames m ns

theorem joinNames_noEol {n : Str} {ns : List Str} (h : ∀ x ∈ n :: ns, NoEol x) :
    NoEol (joinNames n ns) := by
  induction ns generalizing n with
  | nil => exact h n List.mem_cons_self
  | cons m ns ih =>
      refine (h n List.mem_cons_self).append ?_
      exact NoEol.append (s := [chr ' ']) (by decide)
        (ih fun x hx => h x (List.mem_cons_of_mem _ hx))

theorem printArgs_joinNames (first : Bool) (n : Str) (ns : List Str) :
    printArgs false first (n :: ns) = joinNames n ns := by
  induction ns generalizing n first with
  | nil => simp [printArgs, joinNames]
  | cons m ns ih => rw [printArgs, ih, joinNames]

theorem joinNames_colon (n : Str) (ns : List Str) :
    joinNames (chr ':' :: n) ns = chr ':' :: joinNames n ns := by
  cases ns <;> rfl

/-- The names are split where they were joined. -/
theorem gStrsplit_joinNames {n : Str} {ns : List Str} (hne : n ≠ [])
    (h : ∀ x ∈ n :: ns, chr ' ' ∉ x) : gStrsplit (joinNames n ns) (chr ' ') = n :: ns := by
  have hsplit : pieces (chr ' ') (joinNames n ns) = n :: ns := by
    clear hne
    induction ns generalizing n with
    | nil => exact pieces_single (h n List.mem_cons_self)
    | cons m ns ih =>
        rw [joinNames, pieces_append (h n List.mem_cons_self),
          ih fun x hx => h x (List.mem_cons_of_mem _ hx)]
  have hjoin : joinNames n ns ≠ [] := by
    cases ns with
    | nil => exact hne
    | cons m ns => simp [joinNames]
  rw [gStrsplit, if_neg hjoin, hsplit]

/-! ### The line and its text -/

/-- A 353 line with the names `n :: ns`, as it is in memory. -/
def namesLine (origin : Option Str) (target : Str) (ch : ChannelState) (n : Str) (ns : List Str) :
    IrcLine :=
  ⟨origin, [str "353", target, ch.mode.toList, ch.name] ++ (chr ':' :: n) :: ns, .withoutColon⟩

/-- The same line as it is read back. -/
def namesWire (origin : Option Str) (target : Str) (ch : ChannelState) (n : Str) (ns : List Str) :
    IrcLine :=
  ⟨origin, [str "353", target, ch.mode.toList, ch.name, joinNames n ns], .withColon⟩

theorem namesLine_text (origin : Option Str) (target : Str) (ch : ChannelState) (n : Str)
    (ns : List Str) : ircLineStringNl (namesLine origin target ch n ns) =
      ircLineStringNl (namesWire origin target ch n ns) := by
  have hargs : printArgs false true (namesLine origin target ch n ns).args =
      printArgs true true (namesWire origin target ch n ns).args := by
    simp only [namesLine, namesWire, List.cons_append, List.nil_append, printArgs,
      printArgs_joinNames, joinNames, joinNames_colon, Bool.not_false, Bool.and_true, if_true]
  rw [ircLineStringNl, ircLineStringNl, ircLineString, ircLineString]
  simp only [namesLine, namesWire, IrcLine.argc, requiresColon] at hargs ⊢
  rw [hargs]
  simp

/-- The head of the 353 lines of a channel can be told from its text. -/
structure BareHead (origin : Option Str) (target : Str) (ch : ChannelState) : Prop where
  origin : ∀ o ∈ origin, chr ' ' ∉ o
  target : Bare target
  mode : Bare ch.mode.toList
  name : Bare ch.name

/-- **The client reads one argument with all names** behind the channel's. -/
theorem namesLine_wire {origin : Option Str} {target : Str} {ch : ChannelState}
    (h : BareHead origin target ch) {n : Str} {ns : List Str} (hn : ∀ x ∈ n :: ns, NoEol x) :
    ircParseLine (ircLineStringNl (namesLine origin target ch n ns)) =
      some (namesWire origin target ch n ns) := by
  have hp : (namesWire origin target ch n ns).Printable :=
    { origin := h.origin
      args := ⟨str "353", _, rfl, by decide,
        .cons h.target.1 h.target.2 (.cons h.mode.1 h.mode.2 (.cons h.name.1 h.name.2
          (.colon (joinNames_noEol hn)))), fun _ => by decide, fun _ h => by cases h⟩ }
  have := hp.parse_print []
  rw [List.append_nil, ← namesLine_text] at this
  exact this

/-! ### The lines the loop sends -/

/-- The line being filled has these names. -/
def Filling (origin : Option Str) (target : Str) (ch : ChannelState) (l : Option IrcLine)
    (ns : List Str) : Prop :=
  match l with
  | none => ns = []
  | some l => ∃ n ns', ns = n :: ns' ∧ l = namesLine origin target ch n ns'

theorem lineAddArg_namesLine {origin : Option Str} {target : Str} {ch : ChannelState} {n a : Str}
    {ns : List Str} {l : IrcLine} (h : lineAddArg (namesLine origin target ch n ns) a = some l) :
    l = namesLine origin target ch n (ns ++ [a]) := by
  unfold lineAddArg at h
  split at h
  · cases h
  · cases h
    simp [namesLine]

theorem newNamesLine_eq {c : Client} {ch : ChannelState} {arg : Option Str} {target : Str}
    {l : IrcLine} (ht : clientGetDefaultTarget c = .ok target)
    (h : newNamesLine c ch arg = .ok l) :
    l = namesLine c.defaultOrigin target ch (printS arg) [] := by
  rw [newNamesLine, ht, ok_bind] at h
  unfold lineAddArg at h
  split at h
  · next hl =>
    cases h
    split at hl
    · cases hl
    · cases hl
      rfl
  · cases h

/-- The rule of the names loop: what each of its lines keeps, the loop keeps. -/
theorem namesLoop_rule {now : Long} {src : NetworkState} {ch : ChannelState} {I : Client → Prop}
    {P : Str → Prop} {origin : Option Str} {target : Str}
    (hI : ∀ c, I c → c.defaultOrigin = origin ∧ clientGetDefaultTarget c = .ok target)
    (hsend : ∀ c n ns r, I c → (∀ x ∈ n :: ns, P x) →
      clientSendLine now c (namesLine origin target ch n ns) = .ok r → I r.2)
    {ms : List Ref} (hnames : ∀ c arg, I c → ∀ m ∈ ms, memberArg src c m = .ok arg → P (printS arg))
    {l : Option IrcLine} {ns : List Str} (hl : Filling origin target ch l ns)
    (hns : ∀ x ∈ ns, P x) {c : Client} (hc : I c) {r : Bool × Client}
    (h : namesLoop now src ch ms l c = .ok r) : I r.2 := by
  have flush : ∀ {l ns c r}, Filling origin target ch l ns → (∀ x ∈ ns, P x) → I c →
      flushLine now c l = .ok r → I r.2 := by
    intro l ns c r hl hns hc h
    cases l with
    | none =>
        cases h
        exact hc
    | some l =>
        obtain ⟨n, ns', rfl, rfl⟩ := hl
        exact hsend c n ns' r hc hns h
  induction ms generalizing l ns c with
  | nil => exact flush hl hns hc h
  | cons m ms ih =>
      have rest := fun c arg hc x hx => hnames c arg hc x (List.mem_cons_of_mem _ hx)
      rw [namesLoop] at h
      obtain ⟨arg, harg, h⟩ := bind_eq_ok h
      have hP : P (printS arg) := hnames c arg hc m List.mem_cons_self harg
      obtain ⟨added, hadd, h⟩ := bind_eq_ok h
      cases added with
      | some l' =>
          -- the name fits on the line
          cases l with
          | none => cases hadd
          | some l =>
              obtain ⟨n, ns', rfl, rfl⟩ := hl
              cases arg with
              | none => cases hadd
              | some a =>
                  have hl' := lineAddArg_namesLine (Except.ok.inj hadd)
                  refine ih rest (l := some l') ⟨n, ns' ++ [a], rfl, hl'⟩ ?_ hc h
                  intro x hx
                  rcases List.mem_append.mp (List.cons_append ▸ hx) with hx | hx
                  · exact hns x hx
                  · exact List.mem_singleton.mp hx ▸ hP
      | none =>
          -- the line is sent and a new one begun
          obtain ⟨r', hr', h⟩ := bind_eq_ok h
          have hc' := flush hl hns hc hr'
          obtain ⟨l', hl', h⟩ := bind_eq_ok h
          rw [andThen] at h
          split at h
          · obtain ⟨horigin, htarget⟩ := hI _ hc'
            have hfill : Filling origin target ch (some l') [printS arg] :=
              ⟨_, [], rfl, horigin ▸ newNamesLine_eq htarget hl'⟩
            refine ih rest hfill ?_ hc' h
            intro x hx
            exact List.mem_singleton.mp hx ▸ hP
          · cases h
            exact hc'

/-! ### The names loop, with what was listed -/

/-- The name of a member fits on a 353 line of its own. -/
def Fits (origin : Option Str) (target : Str) (ch : ChannelState) (w : Str) : Prop :=
  lineAddArg (namesHead origin target ch) (chr ':' :: w) ≠ none

section
variable {origin : Option Str} {target : Str} {ch : ChannelState}

/-- What fits behind other names fits alone. -/
theorem fits_of_added {n w : Str} {ns : List Str} {l : IrcLine}
    (h : lineAddArg (namesLine origin target ch n ns) w = some l) : Fits origin target ch w := by
  have hlen : lineLen (namesHead origin target ch) + 2 ≤ lineLen (namesLine origin target ch n ns) := by
    simp only [lineLen, namesHead, namesLine, List.map_append, List.sum_append, List.map_cons,
      List.sum_cons, List.length_cons]
    omega
  unfold lineAddArg at h
  split at h
  · cases h
  · next hle =>
    unfold Fits lineAddArg
    rw [if_neg]
    · exact Option.some_ne_none _
    · rw [List.length_cons]
      omega

/-- The rule of the names loop: `I` says what the lines sent so far have listed, `R` is how a member
is listed.  The loop aborts at a name that does not fit on a line. -/
theorem namesLoop_ensures {now : Long} {src : NetworkState} {R : Ref → Str → Prop}
    {I : List Ref → Client → Prop}
    (hI : ∀ done c, I done c → c.defaultOrigin = origin ∧ clientGetDefaultTarget c = .ok target ∧
      ∀ m ∈ ch.nicks, ∃ w, memberArg src c m = .ok (some w) ∧ R m w)
    (hR : ∀ m w w', R m w → R m w' → w = w')
    (hsend : ∀ done line rest c n ns, I done c → ch.nicks = done ++ line ++ rest →
      List.Forall₂ R line (n :: ns) →
      Total (clientSendLine now c (namesLine origin target ch n ns))
        fun r => r.1 = true ∧ I (done ++ line) r.2)
    {ms done line : List Ref} {l : Option IrcLine} {ws : List Str} {c : Client}
    (hl : Filling origin target ch l ws) (hline : List.Forall₂ R line ws) (hc : I done c)
    (hsplit : ch.nicks = done ++ line ++ ms) :
    Ensures (namesLoop now src ch ms l c)
      (fun r => (∀ m ∈ ms, ∀ w, R m w → Fits origin target ch w) ∧ r.1 = true ∧ I ch.nicks r.2)
      (fun _ => ∃ m ∈ ms, ∃ w, R m w ∧ ¬ Fits origin target ch w) := by
  have flush : ∀ {l ws line done rest c}, Filling origin target ch l ws →
      List.Forall₂ R line ws → I done c → ch.nicks = done ++ line ++ rest →
      Total (flushLine now c l) fun r => r.1 = true ∧ I (done ++ line) r.2 := by
    intro l ws line done rest c hl hline hc hsplit
    cases l with
    | none =>
        obtain rfl : ws = [] := hl
        cases hline
        exact ⟨rfl, (List.append_nil done).symm ▸ hc⟩
    | some l =>
        obtain ⟨n, ns, rfl, rfl⟩ := hl
        exact hsend done line rest c n ns hc hsplit hline
  induction ms generalizing l ws line done c with
  | nil =>
      refine Ensures.mono (flush hl hline hc hsplit) (fun r hr => ⟨nofun, hr.1, ?_⟩)
        fun _ => False.elim
      rw [hsplit, List.append_nil]
      exact hr.2
  | cons m ms ih =>
      have hmem : m ∈ ch.nicks := hsplit ▸ List.mem_append_right _ List.mem_cons_self
      obtain ⟨w, harg, hw⟩ := (hI done c hc).2.2 m hmem
      -- the rest of the loop, once the name is known to fit
      have rest : ∀ {l ws line done c}, Fits origin target ch w → Filling origin target ch l ws →
          List.Forall₂ R line ws → I done c → ch.nicks = done ++ line ++ ms →
          Ensures (namesLoop now src ch ms l c)
            (fun r => (∀ m' ∈ m :: ms, ∀ w, R m' w → Fits origin target ch w) ∧ r.1 = true ∧
              I ch.nicks r.2)
            (fun _ => ∃ m' ∈ m :: ms, ∃ w, R m' w ∧ ¬ Fits origin target ch w) := by
        intro l ws line done c hfit hl hline hc hsplit
        refine Ensures.mono (ih hl hline hc hsplit) ?_ ?_
        · rintro r ⟨hfits, hr⟩
          refine ⟨fun m' hm' w' hw' => ?_, hr⟩
          rcases List.mem_cons.mp hm' with rfl | hm'
          · exact hR _ _ _ hw hw' ▸ hfit
          · exact hfits m' hm' w' hw'
        · rintro - ⟨m', hm', hno⟩
          exact ⟨m', List.mem_cons_of_mem _ hm', hno⟩
      have hnext : ch.nicks = done ++ (line ++ [m]) ++ ms := by
        rw [hsplit]
        simp
      rw [namesLoop, harg, ok_bind]
      cases hadd : addToLine l (some w) with
      | error e =>
          cases l <;> cases hadd
      | ok added =>
          rw [ok_bind]
          cases added with
          | some l' =>
              -- the name fits on the line
              cases l with
              | none => cases hadd
              | some l =>
                  obtain ⟨n, ns, rfl, rfl⟩ := hl
                  have hadd' := Except.ok.inj hadd
                  have hfill : Filling origin target ch (some l') (n :: (ns ++ [w])) :=
                    ⟨n, ns ++ [w], rfl, lineAddArg_namesLine hadd'⟩
                  refine rest (fits_of_added hadd') hfill ?_ hc hnext
                  exact List.rel_append hline (.cons hw .nil)
          | none =>
              -- the line is sent and a new one begun
              dsimp only
              obtain ⟨r, hr, htrue, hc'⟩ := (flush hl hline hc hsplit).exists_ok
              obtain ⟨horigin, htarget, -⟩ := hI _ _ hc'
              rw [hr, ok_bind, newNamesLine, htarget, ok_bind]
              cases hhead : lineAddArg (namesHead r.2.defaultOrigin target ch)
                  (chr ':' :: printS (some w)) with
              | none =>
                  rw [horigin] at hhead
                  exact ⟨m, List.mem_cons_self, w, hw, fun hfit => hfit hhead⟩
              | some l' =>
                  have hl' : l' = namesLine origin target ch w [] := by
                    have hnew : newNamesLine r.2 ch (some w) = .ok l' := by
                      rw [newNamesLine, htarget, ok_bind, hhead]
                      rfl
                    exact horigin ▸ newNamesLine_eq htarget hnew
                  rw [horigin] at hhead
                  have hfit : Fits origin target ch w := by
                    intro hno
                    rw [show printS (some w) = w from rfl, hno] at hhead
                    cases hhead
                  dsimp only
                  rw [pure_eq_ok, ok_bind, andThen, if_pos htrue]
                  have hfill : Filling origin target ch (some l') [w] := ⟨w, [], rfl, hl'⟩
                  refine rest hfit hfill (.cons hw .nil) hc' ?_
                  rw [hsplit]
                  simp

end

end Ctrlproxy
