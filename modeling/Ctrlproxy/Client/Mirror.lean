import Mathlib.Data.List.DropRight
import Ctrlproxy.State.Membership
import Ctrlproxy.Client.Names

/-!
# Client — the proxy's idea of a client

`c->state` is meant to be what the client knows, but `client_send_line` applies the line in memory
to it, and the client gets what `irc_line_string_nl` prints and reads that.  The two agree on a line
all of which can be told from its text (`Survives`), and on lines neither side acts on.  The names
list is neither: the colon in front of its names is part of an argument in memory, and the names
behind it are arguments of their own.
-/

namespace Ctrlproxy
open Outcome

/-! ### What the client reads -/

/-- What `irc_parse_line` makes of the bytes of a line. -/
def received (l : IrcLine) : Option IrcLine := ircParseLine (ircLineStringNl l)

/-- A client's state after a line that it received. -/
def mirrorStep (s : NetworkState) (i : Input) : Except Fault NetworkState :=
  match received i.2 with
  | none => .ok s
  | some l => stateStep s (i.1, l)

/-- A client's state after the lines that it received. -/
def mirror (s : NetworkState) (sent : List Input) : Except Fault NetworkState :=
  sent.foldlM mirrorStep s

/-- The mark the parser leaves on a printed line. -/
def printedColon (l : IrcLine) : HasEndcolon :=
  if requiresColon l ∧ 1 < l.argc then .withColon else .withoutColon

/-- A line with that mark. -/
def onWire (l : IrcLine) : IrcLine := { l with hasEndcolon := printedColon l }

/-- A line all of which can be told from its text: no space is in its origin nor in an argument,
but for the last one where a colon is printed, only there an argument begins with a colon, no
argument has a line end in it, and the first argument begins where the text does. -/
def Survives (l : IrcLine) : Prop := (onWire l).Printable

theorem printArgs_onWire (l : IrcLine) :
    printArgs (requiresColon (onWire l)) true l.args = printArgs (requiresColon l) true l.args := by
  have hcolon : requiresColon (onWire l) = decide (requiresColon l ∧ 1 < l.argc) := by
    unfold onWire printedColon
    split <;> rename_i h
    · exact (decide_eq_true h).symm
    · exact (decide_eq_false h).symm
  rw [hcolon]
  cases hl : l.args with
  | nil => rfl
  | cons a as =>
      cases as with
      | nil => simp [printArgs]
      | cons b as =>
          have hlen : 1 < l.argc := by simp [IrcLine.argc, hl]
          simp [hlen]

theorem ircLineStringNl_onWire (l : IrcLine) : ircLineStringNl (onWire l) = ircLineStringNl l := by
  unfold ircLineStringNl ircLineString
  rw [show (onWire l).args = l.args from rfl, printArgs_onWire]
  rfl

/-- A line all of which can be told from its text is read as it was. -/
theorem Survives.received {l : IrcLine} (h : Survives l) : received l = some (onWire l) := by
  have := h.parse_print []
  rw [List.append_nil, ircLineStringNl_onWire] at this
  exact this

/-- Only such lines are read as they were. -/
theorem survives_iff {l : IrcLine} : Survives l ↔ received l = some (onWire l) :=
  ⟨Survives.received, ircParseLine_printable⟩

instance (l : IrcLine) : Decidable (Survives l) := decidable_of_iff _ survives_iff.symm

/-! ### What a handler reads of a line -/

theorem channelModeLoop_mark (now : Long) (origin : Option Str) (args : List Str)
    (c c' : HasEndcolon) (by' : Option Ref) (r : Ref) (w : Str) (t : Bool) (arg : ℕ)
    (s : NetworkState) : channelModeLoop now ⟨origin, args, c⟩ by' r w t arg s =
      channelModeLoop now ⟨origin, args, c'⟩ by' r w t arg s := by
  induction w generalizing t arg s with
  | nil => rfl
  | cons b w ih =>
      simp only [channelModeLoop, ih]
      rfl

/-- No handler reads the mark of the last argument. -/
theorem handler_mark (now : Long) (origin : Option Str) (args : List Str) (c c' : HasEndcolon)
    (s : NetworkState) (k : Command) :
    k.handler now s ⟨origin, args, c⟩ = k.handler now s ⟨origin, args, c'⟩ := by
  cases k with
  | mode =>
      change handleMode now s _ = handleMode now s _
      simp only [handleMode, channelModeLoop_mark now origin args c c']
      rfl
  | _ => rfl

theorem stateStep_mark (s : NetworkState) (now : Long) (l : IrcLine) (c : HasEndcolon) :
    stateStep s (now, { l with hasEndcolon := c }) = stateStep s (now, l) := by
  have hk : commandOf { l with hasEndcolon := c } = commandOf l := rfl
  cases h : commandOf l with
  | none =>
      have h₁ : stateStep s (now, { l with hasEndcolon := c }) = .ok s := stateStep_none (hk.trans h)
      have h₂ : stateStep s (now, l) = .ok s := stateStep_none h
      rw [h₁, h₂]
  | some k =>
      have h₁ : stateStep s (now, { l with hasEndcolon := c }) =
          k.handler now s { l with hasEndcolon := c } := stateStep_handler (hk.trans h)
      have h₂ : stateStep s (now, l) = k.handler now s l := stateStep_handler h
      rw [h₁, h₂]
      exact handler_mark now l.origin l.args c l.hasEndcolon s k

/-! ### The 302 line, stripped in place -/

theorem dropWhile_of_head {α : Type} {p : α → Bool} {l : List α} (h : ∀ a ∈ l.head?, p a = false) :
    l.dropWhile p = l := by
  cases l with
  | nil => rfl
  | cons a l => rw [List.dropWhile_cons_of_neg (by simp [h a rfl])]

theorem gStrstrip_idem (w : Str) : gStrstrip (gStrstrip w) = gStrstrip w := by
  have hback : gStrstrip w = (w.dropWhile Byte.isSpace).rdropWhile Byte.isSpace := rfl
  have hhead : ∀ b ∈ (gStrstrip w).head?, b.isSpace = false := by
    intro b hb
    obtain ⟨t, ht⟩ : gStrstrip w <+: w.dropWhile Byte.isSpace := by
      rw [hback]
      exact List.rdropWhile_prefix _ _
    have hw : (w.dropWhile Byte.isSpace).head? = some b := by
      rw [← ht, List.head?_append, Option.mem_def.mp hb]
      rfl
    have := List.head?_dropWhile_not Byte.isSpace w
    rw [hw] at this
    simpa using this
  have hfront : (gStrstrip w).dropWhile Byte.isSpace = gStrstrip w := dropWhile_of_head hhead
  change ((gStrstrip w).dropWhile Byte.isSpace).rdropWhile Byte.isSpace = gStrstrip w
  rw [hfront, hback]
  exact List.rdropWhile_idempotent Byte.isSpace _

/-- What `handle_302` does to its line changes nothing of what it does to a state. -/
theorem stateStep_stripped (s : NetworkState) (now : Long) (l : IrcLine) :
    stateStep s (now, strippedLine l) = stateStep s (now, l) := by
  unfold strippedLine
  split
  case isFalse => rfl
  case isTrue hk =>
    have hargc := commandOf_argc hk
    have hk' : commandOf { l with args := l.args.modify 2 gStrstrip } = some .c302 := by
      rw [← hk]
      refine commandOf_congr ?_ (List.length_modify _ _ _)
      cases l.args <;> rfl
    have h₁ : stateStep s (now, { l with args := l.args.modify 2 gStrstrip }) =
        handle302 s { l with args := l.args.modify 2 gStrstrip } :=
      stateStep_handler (k := .c302) hk'
    have h₂ : stateStep s (now, l) = handle302 s l := stateStep_handler (k := .c302) hk
    rw [h₁, h₂, handle302, handle302]
    have harg : IrcLine.argStr { l with args := l.args.modify 2 gStrstrip } 2 =
        (l.argStr 2).map gStrstrip := by
      unfold IrcLine.argStr IrcLine.argc
      dsimp only
      rw [List.length_modify, List.getElem?_modify_eq]
      split
      · cases l.args[2]? <;> rfl
      · rfl
    rw [harg]
    cases l.argStr 2 with
    | error e => rfl
    | ok users =>
        change (gStrsplit (gStrstrip (gStrstrip users)) (chr ' ')).foldlM userhost s = _
        rw [gStrstrip_idem]
        rfl

/-! ### Lines neither side acts on -/

/-- A line whose command is in no entry of the table, also when it is read back. -/
structure Unhandled (l : IrcLine) : Prop where
  origin : ∀ o ∈ l.origin, chr ' ' ∉ o
  command : ∃ a as, l.args = a :: as ∧ Word a ∧ a ≠ [] ∧
    (l.origin = none → a.head? ≠ some (chr ':')) ∧ ∀ e ∈ ircCommands, baseEq (some a) e.1 = false

theorem commandOf_unknown {l : IrcLine} {a : Str} (h : l.args.head? = some a)
    (hno : ∀ e ∈ ircCommands, baseEq (some a) e.1 = false) : commandOf l = none := by
  obtain ⟨as, hl⟩ := List.head?_eq_some_iff.mp h
  have hfind : (ircCommands.find? fun e => baseEq (some a) e.1) = none :=
    List.find?_eq_none.mpr fun e he => by simp [hno e he]
  rw [commandOf, hl]
  dsimp only
  rw [hfind]

/-- The first argument ends where the first space or the line end is. -/
theorem parseArgs_head (cur : Str) {p : Str} (hp : p.head? = some (chr ' ') ∨ AtEol p) :
    ∃ as, (parseArgs true cur p).1 = cur :: as := by
  rcases hp with hp | hp
  · obtain ⟨p', rfl⟩ := List.head?_eq_some_iff.mp hp
    by_cases hc : p'.head? = some (chr ':')
    · obtain ⟨q, rfl⟩ := List.head?_eq_some_iff.mp hc
      exact ⟨_, by rw [parseArgs_space_colon]⟩
    · exact ⟨_, by rw [parseArgs_space cur p' hc]⟩
  · exact ⟨[], by rw [hp.parseArgs]⟩

/-- The text of a line behind its origin: the first argument and what follows it. -/
theorem printArgs_split (colon : Bool) (a : Str) (as : List Str) :
    ∃ p, printArgs colon true (a :: as) ++ str "\r\n" = a ++ p ∧
      (p.head? = some (chr ' ') ∨ AtEol p) := by
  cases as with
  | nil => exact ⟨str "\r\n", by simp [printArgs], .inr (.inl rfl)⟩
  | cons b as =>
      refine ⟨chr ' ' :: printArgs colon false (b :: as) ++ str "\r\n", ?_, .inl rfl⟩
      rw [printArgs, List.append_assoc]

/-- The first argument of a line, if it is a word, is read back whatever follows it. -/
theorem received_head {l : IrcLine} (ho : ∀ o ∈ l.origin, chr ' ' ∉ o) {a : Str} {as : List Str}
    (hl : l.args = a :: as) (ha : Word a) (hne : a ≠ [])
    (hcolon : l.origin = none → a.head? ≠ some (chr ':')) :
    ∃ l', received l = some l' ∧ l'.args.head? = some a := by
  obtain ⟨b, a', rfl⟩ := List.exists_cons_of_ne_nil hne
  obtain ⟨p, hp, hend⟩ := printArgs_split (requiresColon l) (b :: a') as
  obtain ⟨as', hparse⟩ := parseArgs_head (b :: a') hend
  have hargs : parseArgs true [] ((b :: a') ++ p) = parseArgs true (b :: a') p :=
    parseArgs_word [] (b :: a') p ha
  have hnil : l.argc ≠ 0 := by simp [IrcLine.argc, hl]
  rw [received, ircLineStringNl, ircLineString, if_neg hnil, hl, List.append_assoc, hp]
  cases horig : l.origin with
  | none =>
      have hhead : ((b :: a') ++ p).head? ≠ some (chr ':') := hcolon horig
      dsimp only
      rw [List.nil_append, ircParseLine_args hhead, hargs, hparse]
      exact ⟨_, rfl, rfl⟩
  | some o =>
      have hb : b ≠ chr ' ' := (ha b List.mem_cons_self).1
      have hhead : ((b :: a') ++ p).head? ≠ some (chr ' ') := fun h => hb (Option.some.inj h)
      dsimp only
      rw [List.append_assoc, List.singleton_append,
        ircParseLine_origin (ho o (horig ▸ rfl)) hhead, hargs, hparse]
      exact ⟨_, rfl, rfl⟩

theorem Unhandled.mirrorStep {l : IrcLine} (h : Unhandled l) (s : NetworkState) (now : Long) :
    mirrorStep s (now, l) = .ok s ∧ stateStep s (now, l) = .ok s := by
  obtain ⟨ho, a, as, hl, ha, hne, hcolon, hno⟩ := h
  obtain ⟨l', hr, hhead⟩ := received_head ho hl ha hne hcolon
  have hk' : commandOf l' = none := commandOf_unknown hhead hno
  have hk : commandOf l = none := commandOf_unknown (by rw [hl]; rfl) hno
  refine ⟨?_, stateStep_none hk⟩
  rw [Ctrlproxy.mirrorStep]
  dsimp only
  rw [hr]
  exact stateStep_none hk'

/-! ### Lines and the mirror -/

/-- A line that both sides understand alike: it survives, or no handler knows its command. -/
inductive Told (l : IrcLine) : Prop
  | survives : Survives (strippedLine l) → Told l
  | unhandled : Unhandled l → Told l

theorem Survives.mirrorStep {l : IrcLine} (h : Survives l) (s : NetworkState) (now : Long) :
    mirrorStep s (now, l) = stateStep s (now, l) := by
  rw [Ctrlproxy.mirrorStep]
  dsimp only
  rw [h.received]
  exact stateStep_mark s now l _

theorem Told.mirrorStep {l : IrcLine} (h : Told l) (s : NetworkState) (now : Long) :
    mirrorStep s (now, strippedLine l) = stateStep s (now, l) := by
  cases h with
  | survives h => rw [h.mirrorStep, stateStep_stripped]
  | unhandled h =>
      obtain ⟨a, as, hl, -, -, -, hno⟩ := h.command
      have hk : commandOf l = none := commandOf_unknown (by rw [hl]; rfl) hno
      have hstrip : strippedLine l = l := by
        rw [strippedLine, hk]
        rfl
      obtain ⟨h₁, h₂⟩ := h.mirrorStep s now
      rw [hstrip, h₁, h₂]

/-- A names list of a channel a state does not have changes nothing of it. -/
theorem namesLine_unknown {s : NetworkState} {origin : Option Str} {target : Str}
    {ch : ChannelState} (hhead : BareHead origin target ch)
    (hno : findChannel s ch.name = .ok none) {n : Str} {ns : List Str}
    (hn : ∀ x ∈ n :: ns, NoEol x) (now : Long) :
    mirrorStep s (now, namesLine origin target ch n ns) = .ok s ∧
      stateStep s (now, namesLine origin target ch n ns) = .ok s := by
  have handle : ∀ {l : IrcLine}, l.argStr 3 = .ok ch.name → handleNamreply s l = .ok s := by
    intro l hl
    rw [handleNamreply, hl, ok_bind, hno]
    rfl
  have hwire : received (namesLine origin target ch n ns) = some (namesWire origin target ch n ns) :=
    namesLine_wire hhead hn
  constructor
  · rw [mirrorStep]
    dsimp only
    rw [hwire]
    have hk : commandOf (namesWire origin target ch n ns) = some .namreply := rfl
    exact (stateStep_handler (k := .namreply) hk).trans (handle rfl)
  · have hk : commandOf (namesLine origin target ch n ns) = some .namreply :=
      commandOf_known (n := 4) rfl rfl (by simp)
    exact (stateStep_handler (k := .namreply) hk).trans (handle rfl)

/-! ### The senders keep the mirror -/

/-- The client's own state is what its lines made of `s₀`. -/
def Mirrored (s₀ : NetworkState) (c : Client) : Prop :=
  ∃ s, c.state = some s ∧ mirror s₀ c.sent = .ok s

/-- Calls of the senders. -/
inductive Send where
  | line (l : IrcLine)
  | args (ap : List (Option Str))
  | argsEx (hm : Option Str) (ap : List (Option Str))
  | response (response : ℕ) (ap : List (Option Str))
  | nameslist (src : NetworkState) (r : Ref)
  | channelMode (src : NetworkState) (r : Ref)

/-- What a call does. -/
def Send.run (now : Long) (c : Client) : Send → Except Fault (Bool × Client)
  | .line l => clientSendLine now c l
  | .args ap => clientSendArgs now c ap
  | .argsEx hm ap => clientSendArgsEx now c hm ap
  | .response n ap => clientSendResponse now c n ap
  | .nameslist src r => clientSendNameslist now c src r
  | .channelMode src r => clientSendChannelMode now c src r

/-- A client after a call. -/
def sendStep (c : Client) (i : Long × Send) : Except Fault Client := do
  let r ← i.2.run i.1 c
  pure r.2

/-- The response is a line that both sides understand alike. -/
def ResponseTold (c : Client) (response : ℕ) (ap : List (Option Str)) : Prop :=
  ∀ target, clientGetDefaultTarget c = .ok target →
    Told (vircParseResponse c.defaultOrigin target response ap)

/-- The list has no names, or the client does not know the channel and can tell the head of the
353 lines from their text. -/
def NamesTold (c : Client) (src : NetworkState) (r : Ref) : Prop :=
  ∀ ch, src.chan r = .ok ch →
    ResponseTold c 366 [some ch.name, some (str "End of /NAMES list")] ∧
    (ch.nicks = [] ∨ ∀ s target, c.state = some s → clientGetDefaultTarget c = .ok target →
      findChannel s ch.name = .ok none ∧ BareHead c.defaultOrigin target ch ∧
      ∀ m ∈ ch.nicks, ∀ arg, memberArg src c m = .ok arg → NoEol (printS arg))

/-- Both lines about the modes of a channel are understood alike. -/
def ModeTold (c : Client) (src : NetworkState) (r : Ref) : Prop :=
  ∀ ch, src.chan r = .ok ch →
    (∀ mode l, mode2string ch.modes = some mode → channelModeLine c ch mode = .ok l → Told l) ∧
    ResponseTold c 329 [some ch.name, some (decimalInt ch.creationTime.1)]

/-- Both sides understand alike what a call sends. -/
def SendTold (c : Client) : Send → Prop
  | .line l => Told l
  | .args ap => Told (vircParseLine c.defaultOrigin ap)
  | .argsEx hm ap => Told (vircParseLine hm ap)
  | .response n ap => ResponseTold c n ap
  | .nameslist src r => NamesTold c src r
  | .channelMode src r => ModeTold c src r

theorem mirror_snoc (s : NetworkState) (sent : List Input) (i : Input) :
    mirror s (sent ++ [i]) = mirror s sent >>= fun s => mirrorStep s i := by
  rw [mirror, List.foldlM_append]
  congr 1
  funext s
  exact bind_pure _

section
variable {s₀ : NetworkState} {now : Long} {c : Client} {r : Bool × Client}

/-- What a call of `client_send_line` leaves: nothing was done, or the line was applied and
handed on. -/
theorem clientSendLine_cases {s : NetworkState} {l : IrcLine} (hs : c.state = some s)
    (h : clientSendLine now c l = .ok r) : r = (false, c) ∨
      ∃ s', stateStep s (now, l) = .ok s' ∧
        r = (true, { c with state := some s', sent := c.sent ++ [(now, strippedLine l)] }) := by
  by_cases hc : c.connected = false
  · rw [clientSendLine, if_pos hc] at h
    cases h
    exact .inl rfl
  · obtain ⟨s', hs', hret, hc'⟩ := clientSendLine_inv (by simpa using hc) hs h
    exact .inr ⟨s', hs', Prod.ext hret hc'⟩

theorem clientSendLine_mirrored (hm : Mirrored s₀ c) {l : IrcLine} (hl : Told l)
    (h : clientSendLine now c l = .ok r) : Mirrored s₀ r.2 := by
  obtain ⟨s, hs, hmir⟩ := hm
  rcases clientSendLine_cases hs h with rfl | ⟨s', hs', rfl⟩
  · exact ⟨s, hs, hmir⟩
  · refine ⟨s', rfl, ?_⟩
    dsimp only
    rw [mirror_snoc, hmir, ok_bind, hl.mirrorStep, hs']

theorem clientSendResponse_mirrored (hm : Mirrored s₀ c) {n : ℕ} {ap : List (Option Str)}
    (hl : ResponseTold c n ap) (h : clientSendResponse now c n ap = .ok r) : Mirrored s₀ r.2 := by
  rw [clientSendResponse] at h
  split at h
  · cases h
  · obtain ⟨target, ht, h⟩ := bind_eq_ok h
    exact clientSendLine_mirrored hm (hl target ht) h

theorem andThen_mirrored {x : Bool × Client} {rest : Client → Except Fault (Bool × Client)}
    (hm : Mirrored s₀ x.2) (hrest : x.1 = true → rest x.2 = .ok r → Mirrored s₀ r.2)
    (h : andThen x rest = .ok r) : Mirrored s₀ r.2 := by
  rw [andThen] at h
  split at h
  · next hx => exact hrest hx h
  · cases h
    exact hm

/-- A client that only got more lines is still told the same names. -/
theorem ResponseTold.of_state {c' : Client} {n : ℕ} {ap : List (Option Str)}
    (h : ResponseTold c n ap) (ho : c'.defaultOrigin = c.defaultOrigin)
    (ht : clientGetDefaultTarget c' = clientGetDefaultTarget c) : ResponseTold c' n ap := by
  intro target htarget
  rw [ho]
  exact h target (ht ▸ htarget)

theorem clientSendNameslist_mirrored (hm : Mirrored s₀ c) {src : NetworkState} {x : Ref}
    (hl : NamesTold c src x) (h : clientSendNameslist now c src x = .ok r) : Mirrored s₀ r.2 := by
  rw [clientSendNameslist] at h
  obtain ⟨ch, hch, h⟩ := bind_eq_ok h
  obtain ⟨y, hy, h⟩ := bind_eq_ok h
  obtain ⟨hend, hnames⟩ := hl ch hch
  obtain ⟨s, hs, hmir⟩ := hm
  -- the names lines leave the state as it is
  let I : Client → Prop := fun c' => c'.state = c.state ∧ c'.defaultOrigin = c.defaultOrigin ∧
    mirror s₀ c'.sent = .ok s
  have hI : I y.2 := by
    rcases hnames with hnil | hno
    · rw [hnil, namesLoop, flushLine] at hy
      cases hy
      exact ⟨rfl, rfl, hmir⟩
    · cases ht : clientGetDefaultTarget c with
      | error e =>
          cases hms : ch.nicks with
          | nil =>
              rw [hms, namesLoop, flushLine] at hy
              cases hy
              exact ⟨rfl, rfl, hmir⟩
          | cons m ms =>
              -- the first line needs the target
              rw [hms, namesLoop] at hy
              obtain ⟨arg, -, hy⟩ := bind_eq_ok hy
              simp only [addToLine, ok_bind, flushLine, newNamesLine, ht, error_bind] at hy
              cases hy
      | ok target =>
          obtain ⟨hunknown, hhead, hok⟩ := hno s target hs ht
          have htarget : ∀ c', I c' → clientGetDefaultTarget c' = .ok target := by
            rintro c' ⟨hst, -, -⟩
            rw [clientGetDefaultTarget, hst]
            exact ht
          have hfill : Filling c.defaultOrigin target ch none [] := rfl
          refine namesLoop_rule (P := NoEol) (fun c' hc' => ⟨hc'.2.1, htarget c' hc'⟩) ?_ ?_
            hfill (List.forall_mem_nil _) ⟨rfl, rfl, hmir⟩ hy
          · rintro c' n ns r' ⟨hst, ho, hmir'⟩ hns hsend
            obtain ⟨h₁, h₂⟩ := namesLine_unknown hhead hunknown hns now
            rcases clientSendLine_cases (hst.trans hs) hsend with rfl | ⟨s', hs', rfl⟩
            · exact ⟨hst, ho, hmir'⟩
            · rw [h₂] at hs'
              cases hs'
              have hstrip : strippedLine (namesLine c.defaultOrigin target ch n ns) =
                  namesLine c.defaultOrigin target ch n ns := rfl
              refine ⟨hs.symm, ho, ?_⟩
              dsimp only
              rw [mirror_snoc, hmir', ok_bind, hstrip, h₁]
          · rintro c' arg ⟨hst, -, -⟩ m hmem harg
            refine hok m hmem arg ?_
            rw [memberArg, hst] at harg
            exact harg
  refine andThen_mirrored ⟨s, hI.1.trans hs, hI.2.2⟩ ?_ h
  intro _ hsend
  refine clientSendResponse_mirrored ⟨s, hI.1.trans hs, hI.2.2⟩ (hend.of_state hI.2.1 ?_) hsend
  rw [clientGetDefaultTarget, clientGetDefaultTarget, hI.1]

/-- A 324 line renames nobody. -/
theorem handle324_nickHeap {s s' : NetworkState} {l : IrcLine} (h : handle324 s l = .ok s') :
    s'.nickHeap = s.nickHeap := by
  rw [handle324] at h
  obtain ⟨name, -, h⟩ := bind_eq_ok h
  obtain ⟨o, -, h⟩ := bind_eq_ok h
  cases o with
  | none =>
      cases h
      rfl
  | some x =>
      obtain ⟨w, -, h⟩ := bind_eq_ok h
      obtain ⟨p, -, h⟩ := bind_eq_ok h
      obtain ⟨ch, -, e⟩ := bind_eq_ok h
      exact Except.ok.inj e ▸ rfl

theorem channelModeLine_command {ch : ChannelState} {mode : Str} {l : IrcLine}
    (h : channelModeLine c ch mode = .ok l) : commandOf l = some .c324 := by
  rw [channelModeLine] at h
  obtain ⟨target, -, h⟩ := bind_eq_ok h
  split at h
  · cases h
  · obtain ⟨opts, -, h⟩ := bind_eq_ok h
    cases h
    exact commandOf_known (n := 3) rfl rfl (by simp)

/-- The first line of `client_send_channel_mode` leaves the client the name it is called by. -/
theorem channelModeLine_target {ch : ChannelState} {mode : Str} {l : IrcLine} {s : NetworkState}
    (hs : c.state = some s) (hl : channelModeLine c ch mode = .ok l)
    (h : clientSendLine now c l = .ok r) : r.2.defaultOrigin = c.defaultOrigin ∧
      clientGetDefaultTarget r.2 = clientGetDefaultTarget c := by
  rcases clientSendLine_cases hs h with rfl | ⟨s', hs', rfl⟩
  · exact ⟨rfl, rfl⟩
  · have hstep : stateStep s (now, l) = handle324 s l :=
      stateStep_handler (k := .c324) (channelModeLine_command hl)
    rw [hstep] at hs'
    refine ⟨rfl, ?_⟩
    rw [clientGetDefaultTarget, clientGetDefaultTarget, hs]
    dsimp only
    rw [NetworkState.nick, NetworkState.nick, handle324_nickHeap hs']

theorem clientSendChannelMode_mirrored (hm : Mirrored s₀ c) {src : NetworkState} {x : Ref}
    (hl : ModeTold c src x) (h : clientSendChannelMode now c src x = .ok r) :
    Mirrored s₀ r.2 := by
  rw [clientSendChannelMode] at h
  obtain ⟨ch, hch, h⟩ := bind_eq_ok h
  obtain ⟨y, hy, h⟩ := bind_eq_ok h
  obtain ⟨hmode, htime⟩ := hl ch hch
  have hfirst : Mirrored s₀ y.2 ∧ y.2.defaultOrigin = c.defaultOrigin ∧
      clientGetDefaultTarget y.2 = clientGetDefaultTarget c := by
    rw [sendModeString] at hy
    split at hy
    · cases hy
      exact ⟨hm, rfl, rfl⟩
    · next mode hmd =>
      obtain ⟨l, hline, hsend⟩ := bind_eq_ok hy
      obtain ⟨s, hs, hmir⟩ := hm
      exact ⟨clientSendLine_mirrored ⟨s, hs, hmir⟩ (hmode mode l hmd hline) hsend,
        channelModeLine_target hs hline hsend⟩
  obtain ⟨hm', ho, ht⟩ := hfirst
  refine andThen_mirrored hm' (fun _ hrest => ?_) h
  split at hrest
  · exact clientSendResponse_mirrored hm' (htime.of_state ho ht) hrest
  · cases hrest
    exact hm'

/-- **One call keeps the mirror.** -/
theorem sendStep_mirrored (hm : Mirrored s₀ c) (i : Long × Send) (hl : SendTold c i.2) :
    Ensures (sendStep c i) (Mirrored s₀) (fun _ => True) := by
  cases h : sendStep c i with
  | error e => trivial
  | ok c' =>
      obtain ⟨r, hcall, e⟩ := bind_eq_ok h
      cases e
      obtain ⟨now, k⟩ := i
      cases k with
      | line l => exact clientSendLine_mirrored hm hl hcall
      | args ap => exact clientSendLine_mirrored hm hl hcall
      | argsEx o ap => exact clientSendLine_mirrored hm hl hcall
      | response n ap => exact clientSendResponse_mirrored hm hl hcall
      | nameslist src x => exact clientSendNameslist_mirrored hm hl hcall
      | channelMode src x => exact clientSendChannelMode_mirrored hm hl hcall

end

/-! ### Every run -/

/-- A client nothing was sent to yet, in a given state. -/
def Client.quiet (connected : Bool) (defaultOrigin : Option Str) (s : NetworkState) : Client where
  connected := connected
  defaultOrigin := defaultOrigin
  state := some s
  sent := []

/-- **The client's state is what the client knows**, after any calls of the senders each of which
sends what both sides understand alike: lines all of which can be told from their text or whose
command no handler knows, and names lists without names or of channels the client is not on. -/
theorem reachable_mirrored {connected : Bool} {origin : Option Str} {s₀ : NetworkState} {c : Client}
    (h : Reach sendStep (fun c i => SendTold c i.2) (Client.quiet connected origin s₀) c) :
    ∃ s, c.state = some s ∧ mirror s₀ c.sent = .ok s :=
  h.invariant (I := Mirrored s₀) ⟨s₀, rfl, rfl⟩ fun _ i hm hl => sendStep_mirrored hm i hl

/-- A user who was just welcomed. -/
def freshUser : NetworkState := networkStateInit (str "me") (str "u") (str "h")

/-- The user joins a channel. -/
def joinsChannel : Long × Send :=
  (long0, .argsEx (some (str "me!u@h")) [some (str "JOIN"), some (str "#c")])

theorem joinsChannel_told (c : Client) : SendTold c joinsChannel.2 :=
  .survives (by decide)

theorem reachable_mirrored_topic : ∃ c,
    Reach sendStep (fun c i => SendTold c i.2) (Client.quiet true (some (str "net")) freshUser) c ∧
      c.sent.length = 2 ∧ ∃ s, c.state = some s ∧ mirror freshUser c.sent = .ok s := by
  let c₀ := Client.quiet true (some (str "net")) freshUser
  have run₁ : (sendStep c₀ joinsChannel).map (fun c =>
      (c.sent.length, c.defaultOrigin, clientGetDefaultTarget c)) =
      .ok (1, some (str "net"), .ok (str "me")) := by decide +kernel
  obtain ⟨c₁, h₁, hfacts⟩ := map_eq_ok run₁
  simp only [Prod.mk.injEq] at hfacts
  obtain ⟨-, horigin, htarget⟩ := hfacts
  let topic : Long × Send := (long0, .response 332 [some (str "#c"), some (str "a long topic")])
  have htopic : SendTold c₁ topic.2 := by
    intro target ht
    rw [htarget] at ht
    cases ht
    rw [horigin]
    exact .survives (by decide +kernel)
  have run₂ : (sendStep c₀ joinsChannel >>= fun c => sendStep c topic).map (·.sent.length) =
      .ok 2 := by decide +kernel
  rw [h₁, ok_bind] at run₂
  obtain ⟨c₂, h₂, hlen⟩ := map_eq_ok run₂
  have hr₁ : Reach sendStep (fun c i => SendTold c i.2) c₀ c₁ :=
    .step .refl (joinsChannel_told c₀) h₁
  have hr : Reach sendStep (fun c i => SendTold c i.2) c₀ c₂ := .step hr₁ htopic h₂
  exact ⟨c₂, hr, hlen, reachable_mirrored hr⟩

/-- The network's state with the user alone on the channel, which is the first object made. -/
def aloneOnChannel : NetworkState :=
  (stateStep freshUser (inputOf ":me!u@h JOIN #c")).toOption.getD freshUser

/-- The names list leaves the client a nick in the proxy's eyes that it never heard of. -/
theorem mirror_misreads_names : ¬ ∀ (connected : Bool) (origin : Option Str) (s₀ : NetworkState)
    (c : Client), Reach sendStep (fun _ _ => True) (Client.quiet connected origin s₀) c →
      ∃ s, c.state = some s ∧ mirror s₀ c.sent = .ok s := by
  intro claim
  let c₀ := Client.quiet true (some (str "net")) freshUser
  have run : (admittedRun sendStep (fun _ _ => True) c₀
      [joinsChannel, (long0, .nameslist aloneOnChannel 1)]).bind (fun c => c.state.map fun s =>
        (s.nicks.length, (mirror freshUser c.sent).toOption.map (·.nicks.length))) =
      some (1, some 0) := by decide +kernel
  obtain ⟨c, hrun, hst⟩ := Option.bind_eq_some_iff.mp run
  obtain ⟨s, hs, hfacts⟩ := Option.map_eq_some_iff.mp hst
  simp only [Prod.mk.injEq] at hfacts
  obtain ⟨hown, htheirs⟩ := hfacts
  have hstart : Reach sendStep (fun _ _ => True) c₀ c₀ := .refl
  obtain ⟨s', hs', hmir⟩ := claim _ _ _ c (hstart.of_admittedRun hrun)
  rw [hs] at hs'
  cases hs'
  rw [hmir] at htheirs
  have hlen : s.nicks.length = 0 := Option.some.inj htheirs
  rw [hown] at hlen
  cases hlen

end Ctrlproxy
