import Ctrlproxy.Client.Send
import Ctrlproxy.State.Hostmask
import Ctrlproxy.State.Totality

/-!
# Client — the spoofed netsplit

`client_send_netsplit` quits every nick the client knows: as long as `c->state` lists one, it sends
the QUIT of the first, and `handle_quit` is to take that nick off the list.  The loop has no
counter.  It ends, with an empty list, exactly on the states on which the name of every listed nick
leads back to that nick and not to the user's own (`Netsplittable`).
-/

namespace Ctrlproxy
open Outcome

/-! ### The loop -/

/-- `client_send_nick_quit`. -/
def clientSendNickQuit (now : Long) (c : Client) (gn : NetworkNick) (reason : Str) :
    Except Fault (Bool × Client) :=
  match gn.hostmask with
  -- the client has not seen the hostmask of this nick either: make one up
  | none => clientSendArgsEx now c (some (printS gn.nick ++ str "!~UNKNOWN@UNKNOWN"))
      [some (str "QUIT"), some reason]
  | some hm => clientSendArgsEx now c (some hm) [some (str "QUIT"), some reason]

/-- The element the loop takes: the first that is not the user's own nick. -/
def netsplitHead (s : NetworkState) : Option Ref :=
  match s.nicks with
  | [] => none
  | g :: gs => if g = meRef then gs.head? else some g

/-- One round of the loop on a client with a state: `none` where the loop ends. -/
def netsplitRound (now : Long) (reason : Str) (c : Client) :
    Except Fault (Option (Bool × Client)) :=
  match c.state with
  | none => .ok none
  | some s => match netsplitHead s with
      | none => .ok none
      | some g => do
          let gn ← s.nick g
          let r ← clientSendNickQuit now c gn reason
          pure (some r)

/-- The loop of `client_send_netsplit`, given up after so many rounds. -/
def netsplitLoop (now : Long) (reason : Str) : ℕ → Client → Except Fault (Bool × Client)
  | 0, _ => .error .diverges
  | k + 1, c => do
      match ← netsplitRound now reason c with
      | none => pure (true, c)
      | some (true, c) => netsplitLoop now reason k c
      | some (false, c) => pure (false, c)

/-- `client_send_netsplit`. -/
def clientSendNetsplit (fuel : ℕ) (now : Long) (c : Client) (myName lostServer : Option Str) :
    Except Fault (Bool × Client) :=
  match c.state with
  | none => .ok (false, c)
  | some _ => netsplitLoop now (printS myName ++ chr ' ' :: printS lostServer) fuel c

/-! ### What a QUIT takes off the list -/

/-- The name of a listed nick leads back to that nick: it is there, it has no `!` in it, and it is
not the user's own. -/
def Splits (s : NetworkState) (g : Ref) : Prop :=
  ∃ a me, nameOf s g = some a ∧ chr '!' ∉ a ∧ nameOf s meRef = some me ∧
    (casemapOf (some s.info)).fold me ≠ (casemapOf (some s.info)).fold a

/-- The names of all listed nicks lead back to them. -/
def Netsplittable (s : NetworkState) : Prop := ∀ g ∈ s.nicks, Splits s g

section
variable {s s' : NetworkState} {l : IrcLine}

/-- `handle_quit` takes exactly the nick it finds off the list. -/
theorem handleQuit_found (h : Graph s) {o : Str} (ho : l.origin = some o) {r : Option Ref}
    (hr : findNetworkNick s (upToBang o) = .ok r) :
    ∃ s', handleQuit s l = .ok s' ∧ Trims s s' ∧
      s'.nicks = r.elim s.nicks fun g => s.nicks.erase g := by
  have hnick : lineGetNick l = .ok (upToBang o) := by rw [lineGetNick, ho]
  rw [handleQuit, ho]
  dsimp only
  rw [hnick, ok_bind, hr, ok_bind]
  cases r with
  | none => exact ⟨s, rfl, .refl, rfl⟩
  | some g =>
      by_cases hg : g = meRef
      · subst hg
        obtain ⟨me, hme, -⟩ := h.nick_live meRef (.inl rfl)
        obtain ⟨s', hs', he, hns, -⟩ :=
          freeMemberships_ok h (.inl rfl) hme (h.me_query me hme)
        refine ⟨s', ?_, he, ?_⟩
        · simpa [NetworkState.nick_eq hme] using hs'
        · rw [Option.elim_some, hns, List.erase_of_not_mem h.me_not_listed]
      · have hmem : g ∈ s.nicks := (findNetworkNick_some rfl hr).1.resolve_left hg
        obtain ⟨s', hs', he, hns⟩ := freeNetworkNick_erases h hmem
        exact ⟨s', by simpa [hg] using hs', he, hns⟩

theorem handleQuit_inv (h : Graph s) {o : Str} (ho : l.origin = some o)
    (hq : handleQuit s l = .ok s') : ∃ r, findNetworkNick s (upToBang o) = .ok r ∧ Trims s s' ∧
      s'.nicks = r.elim s.nicks fun g => s.nicks.erase g := by
  obtain ⟨r, hr⟩ : ∃ r, findNetworkNick s (upToBang o) = .ok r := by
    rw [handleQuit, ho] at hq
    dsimp only at hq
    rw [lineGetNick, ho] at hq
    dsimp only at hq
    rw [ok_bind] at hq
    obtain ⟨r, hr, -⟩ := bind_eq_ok hq
    exact ⟨r, hr⟩
  obtain ⟨s₁, hs₁, he, hns⟩ := handleQuit_found h ho hr
  rw [hq] at hs₁
  cases hs₁
  exact ⟨r, hr, he, hns⟩

theorem foldByte_bang (m : Casemapping) (b : Byte) : m.foldByte b = chr '!' ↔ b = chr '!' := by
  unfold Casemapping.foldByte
  split
  · next hb =>
    refine iff_of_false (fun e => ?_) ?_
    · have := congrArg Subtype.val e
      change b.1 + 32 = 33 at this
      omega
    · rintro rfl
      exact absurd hb.1 (by decide)
  · rfl

/-- Names equal up to case have an exclamation mark both or neither. -/
theorem bang_of_fold {m : Casemapping} {a b : Str} (e : m.fold a = m.fold b)
    (hb : chr '!' ∉ b) : chr '!' ∉ a := by
  intro ha
  have hmem : chr '!' ∈ m.fold b := by
    rw [← e]
    exact List.mem_map.mpr ⟨_, ha, (foldByte_bang m _).mpr rfl⟩
  obtain ⟨c, hc, hcb⟩ := List.mem_map.mp hmem
  rw [(foldByte_bang m c).mp hcb] at hc
  exact hb hc

theorem not_mem_upToBang (w : Str) : chr '!' ∉ upToBang w := by
  intro h
  simpa using List.mem_takeWhile_imp h

/-- A listed nick that a QUIT finds is one its own name leads to. -/
theorem found_splits {o : Str} {g : Ref} (hg : g ∈ s.nicks) (hne : g ≠ meRef)
    (hr : findNetworkNick s (upToBang o) = .ok (some g)) : Splits s g := by
  obtain ⟨-, a, ha, e⟩ := findNetworkNick_some rfl hr
  -- the user's own nick is compared first
  rw [findNetworkNick, findFirst] at hr
  obtain ⟨t, ht, hrest⟩ := bind_eq_ok hr
  cases t with
  | true =>
      cases hrest
      exact absurd rfl hne
  | false =>
      obtain ⟨n, hn, hfalse⟩ := bind_eq_ok ht
      obtain ⟨me, hme, hdiff⟩ := ircEq_false hfalse
      refine ⟨a, me, ha, bang_of_fold e (not_mem_upToBang o), ?_, ?_⟩
      · rw [nameOf_eq (NetworkState.nick_inv hn), hme]
      · rw [e]
        exact hdiff

theorem Splits.of_trims (h : Graph s) (e : Trims s s') {g : Ref} (hg : g ∈ s'.nicks) :
    Splits s' g ↔ Splits s g := by
  have hi : s'.info = s.info := (Quiets.edits (Trims.quiets e)).info_eq
  have hn := (Trims.names e h (.inr hg)).2
  have hme := (Trims.names e h (g := meRef) (.inl rfl)).2
  rw [Splits, Splits, hi, hn, hme]

/-- Where the names of the nicks left lead back to them, those of all nicks did. -/
theorem Netsplittable.of_quit (h : Graph s) {o : Str} (ho : l.origin = some o)
    (hq : handleQuit s l = .ok s') (h' : Netsplittable s') : Netsplittable s := by
  obtain ⟨r, hr, he, hns⟩ := handleQuit_inv h ho hq
  intro g hg
  by_cases hg' : g ∈ s'.nicks
  · exact (Splits.of_trims h he hg').mp (h' g hg')
  · have hne : g ≠ meRef := fun e => h.me_not_listed (e ▸ hg)
    cases r with
    | none =>
        rw [Option.elim_none] at hns
        exact absurd (hns ▸ hg) hg'
    | some x =>
        rw [Option.elim_some] at hns
        by_cases hx : g = x
        · subst hx
          exact found_splits hg hne hr
        · exact absurd (hns ▸ (List.mem_erase_of_ne hx).mpr hg) hg'

/-- The first listed nick, when its name leads back to it, is what that name finds. -/
theorem findNetworkNick_head (h : Graph s) {g : Ref} {gs : List Ref} (hl : s.nicks = g :: gs)
    {a : Str} (ha : nameOf s g = some a) (hg : Splits s g) :
    findNetworkNick s a = .ok (some g) := by
  obtain ⟨a', me, ha', -, hme, hdiff⟩ := hg
  rw [ha] at ha'
  cases ha'
  obtain ⟨n, hn, -⟩ := h.nick_live meRef (.inl rfl)
  obtain ⟨gn, hgn, -⟩ := h.nick_live g (.inr (hl ▸ List.mem_cons_self))
  rw [nameOf_eq hn] at hme
  rw [nameOf_eq hgn] at ha
  have hno : ircEq (some s.info) n.nick (some a) = .ok false := by
    rw [hme]
    rw [ircEq_fold, decide_eq_false hdiff]
  have hyes : ircEq (some s.info) gn.nick (some a) = .ok true := by
    rw [ha]
    rw [ircEq_fold, decide_eq_true rfl]
  rw [findNetworkNick, hl, findFirst, NetworkState.nick_eq hn, ok_bind, hno, ok_bind, findFirst,
    NetworkState.nick_eq hgn, ok_bind, hyes]
  rfl

end

/-! ### One round -/

/-- The origin of the QUIT of a nick. -/
def quitOrigin (gn : NetworkNick) : Str :=
  gn.hostmask.getD (printS gn.nick ++ str "!~UNKNOWN@UNKNOWN")

/-- The QUIT of a nick. -/
def quitLine (gn : NetworkNick) (reason : Str) : IrcLine :=
  ⟨some (quitOrigin gn), [str "QUIT", reason], .colonUnknown⟩

theorem clientSendNickQuit_eq (now : Long) (c : Client) (gn : NetworkNick) (reason : Str) :
    clientSendNickQuit now c gn reason = clientSendLine now c (quitLine gn reason) := by
  unfold clientSendNickQuit quitLine quitOrigin
  cases gn.hostmask <;> rfl

theorem commandOf_quitLine (gn : NetworkNick) (reason : Str) :
    commandOf (quitLine gn reason) = some .quit := rfl

theorem stateStep_quitLine (s : NetworkState) (now : Long) (gn : NetworkNick) (reason : Str) :
    stateStep s (now, quitLine gn reason) = handleQuit s (quitLine gn reason) :=
  stateStep_handler (i := (now, quitLine gn reason)) (commandOf_quitLine gn reason)

/-- The QUIT of a nick whose hostmask begins with its name carries that name. -/
theorem upToBang_quitOrigin {gn : NetworkNick} {a : Str} (h : HostmaskNick gn)
    (ha : gn.nick = some a) (hbang : chr '!' ∉ a) : upToBang (quitOrigin gn) = a := by
  have hup : upToBang a = a := List.takeWhile_eq_self_iff.mpr fun b hb =>
    decide_eq_true fun e => hbang (e ▸ hb)
  unfold quitOrigin
  cases hm : gn.hostmask with
  | none =>
      rw [Option.getD_none, ha]
      exact (upToBang_append a _).trans hup
  | some hm' => exact (h hm' a hm ha).trans hup

section
variable {now : Long} {reason : Str} {c : Client} {s : NetworkState}

theorem netsplitHead_of_graph (h : Graph s) : netsplitHead s = s.nicks.head? := by
  unfold netsplitHead
  cases hl : s.nicks with
  | nil => rfl
  | cons g gs =>
      have hne : g ≠ meRef := fun e => h.me_not_listed (by rw [hl, e]; exact List.mem_cons_self)
      dsimp only
      rw [if_neg hne]
      rfl

/-- A round on a client that lists no nick ends the loop. -/
theorem netsplitRound_nil (hs : c.state = some s) (hl : s.nicks = []) :
    netsplitRound now reason c = .ok none := by
  rw [netsplitRound, hs]
  dsimp only
  rw [netsplitHead, hl]

/-- A round on a client that lists a nick sends the QUIT of the first. -/
theorem netsplitRound_cons (hc : c.connected = true) (hs : c.state = some s) (h : Graph s)
    {g : Ref} {gs : List Ref} (hl : s.nicks = g :: gs) {gn : NetworkNick}
    (hgn : s.nickHeap g = some gn) :
    netsplitRound now reason c = (handleQuit s (quitLine gn reason)).map fun s' =>
      some (true, { c with state := some s', sent := c.sent ++ [(now, quitLine gn reason)] }) := by
  have hhead : netsplitHead s = some g := by rw [netsplitHead_of_graph h, hl]; rfl
  have hstrip : strippedLine (quitLine gn reason) = quitLine gn reason := by
    rw [strippedLine, commandOf_quitLine]
    rfl
  rw [netsplitRound, hs]
  dsimp only
  rw [hhead]
  dsimp only
  rw [NetworkState.nick_eq hgn, ok_bind, clientSendNickQuit_eq, clientSendLine_state hc hs,
    stateStep_quitLine, hstrip]
  cases handleQuit s (quitLine gn reason) <;> rfl

end

/-! ### The whole loop -/

section
variable {now : Long} {reason : Str}

/-- A loop that ends began on a state all of whose names lead back. -/
theorem netsplitLoop_needs {k : ℕ} {c : Client} {s : NetworkState} {r : Bool × Client}
    (h : netsplitLoop now reason k c = .ok r) (hc : c.connected = true)
    (hs : c.state = some s) (hg : Graph s) : Netsplittable s := by
  induction k generalizing c s with
  | zero => cases h
  | succ k ih =>
      rw [netsplitLoop] at h
      cases hl : s.nicks with
      | nil =>
          intro g hgm
          rw [hl] at hgm
          cases hgm
      | cons g gs =>
          obtain ⟨gn, hgn, -⟩ := hg.nick_live g (.inr (hl ▸ List.mem_cons_self))
          rw [netsplitRound_cons hc hs hg hl hgn] at h
          cases hq : handleQuit s (quitLine gn reason) with
          | error e => rw [hq] at h; cases h
          | ok s₁ =>
              rw [hq] at h
              obtain ⟨r, -, he, -⟩ := handleQuit_inv hg rfl hq
              exact (ih h hc rfl (Trims.graph he hg)).of_quit hg rfl hq

/-- The names of the nicks on a list. -/
def namesOf (s : NetworkState) (l : List Ref) : List (Option Str) := l.map (nameOf s)

/-- The nick a line is from. -/
def lineNick (i : Input) : Option Str := i.2.origin.map upToBang

/-- On a state all of whose names lead back the loop ends: it sends one QUIT for each listed nick,
and each takes its nick off the list. -/
theorem netsplitLoop_ends (now : Long) (reason : Str) {l : List Ref} {c : Client} {s : NetworkState}
    (hc : c.connected = true) (hs : c.state = some s) (hg : Graph s) (hh : HostmaskNicks s)
    (hl : s.nicks = l) (hn : Netsplittable s) :
    ∃ c' s' quits, netsplitLoop now reason (l.length + 1) c = .ok (true, c') ∧
      c'.state = some s' ∧ s'.nicks = [] ∧ c'.sent = c.sent ++ quits ∧
      quits.map lineNick = namesOf s l := by
  induction l generalizing c s with
  | nil =>
      refine ⟨c, s, [], ?_, hs, hl, (List.append_nil _).symm, rfl⟩
      rw [netsplitLoop, netsplitRound_nil hs hl]
      rfl
  | cons g gs ih =>
      have hmem : g ∈ s.nicks := hl ▸ List.mem_cons_self
      have hne : g ≠ meRef := fun e => hg.me_not_listed (e ▸ hmem)
      obtain ⟨gn, hgn, -⟩ := hg.nick_live g (.inr hmem)
      obtain ⟨a, me, ha, hbang, -⟩ := hn g hmem
      have hnick : gn.nick = some a := (nameOf_eq hgn).symm.trans ha
      have hup := upToBang_quitOrigin (hh g gn hne hgn) hnick hbang
      have hfind : findNetworkNick s (upToBang (quitOrigin gn)) = .ok (some g) := by
        rw [hup]
        exact findNetworkNick_head hg hl ha (hn g hmem)
      obtain ⟨s₁, hs₁, he, hns⟩ :=
        handleQuit_found (l := quitLine gn reason) hg rfl hfind
      have hl₁ : s₁.nicks = gs := by rw [hns, Option.elim_some, hl, List.erase_cons_head]
      have hsub : ∀ x ∈ gs, x ∈ s₁.nicks := fun x hx => hl₁ ▸ hx
      have hn₁ : Netsplittable s₁ := fun x hx =>
        (Splits.of_trims hg he hx).mpr (hn x (hl ▸ List.mem_cons_of_mem _ (hl₁ ▸ hx)))
      have hh₁ : HostmaskNicks s₁ := he.keeps Trim.hostmaskNicks hh
      obtain ⟨c', s', quits, hloop, hs', hnil, hsent, hnames⟩ :=
        ih (c := { c with state := some s₁, sent := c.sent ++ [(now, quitLine gn reason)] }) hc rfl
          (Trims.graph he hg) hh₁ hl₁ hn₁
      refine ⟨c', s', (now, quitLine gn reason) :: quits, ?_, hs', hnil, ?_, ?_⟩
      · rw [List.length_cons, netsplitLoop, netsplitRound_cons hc hs hg hl hgn, hs₁]
        exact hloop
      · rw [hsent, List.append_assoc]
        rfl
      · rw [List.map_cons, hnames, namesOf, namesOf, List.map_cons, ha]
        congr 1
        · exact congrArg some hup
        · exact List.map_congr_left fun x hx => (Trims.names he hg (.inr (hsub x hx))).2

end

/-! ### Every reachable client -/

/-- `client_send_netsplit` terminates and leaves no nick, having sent one QUIT for each nick that
was listed. -/
def NetsplitEmpties (now : Long) (c : Client) (s : NetworkState) (myName lostServer : Option Str) :
    Prop :=
  ∃ fuel c' s' quits, clientSendNetsplit fuel now c myName lostServer = .ok (true, c') ∧
    c'.state = some s' ∧ s'.nicks = [] ∧ c'.sent = c.sent ++ quits ∧
    quits.map lineNick = namesOf s s.nicks

theorem clientSendNetsplit_eq {fuel : ℕ} {now : Long} {c : Client} {s : NetworkState}
    (hs : c.state = some s) (myName lostServer : Option Str) :
    clientSendNetsplit fuel now c myName lostServer =
      netsplitLoop now (printS myName ++ chr ' ' :: printS lostServer) fuel c := by
  rw [clientSendNetsplit, hs]

theorem netsplitEmpties_iff {now : Long} {c : Client} {s : NetworkState}
    (hc : c.connected = true) (hs : c.state = some s) (hg : Graph s) (hh : HostmaskNicks s)
    (myName lostServer : Option Str) :
    NetsplitEmpties now c s myName lostServer ↔ Netsplittable s := by
  constructor
  · rintro ⟨fuel, c', s', quits, hrun, -⟩
    rw [clientSendNetsplit_eq hs] at hrun
    exact netsplitLoop_needs hrun hc hs hg
  · intro hn
    obtain ⟨c', s', quits, hrun, hrest⟩ :=
      netsplitLoop_ends now (printS myName ++ chr ' ' :: printS lostServer) hc hs hg hh rfl hn
    exact ⟨_, c', s', quits, (clientSendNetsplit_eq hs _ _).trans hrun, hrest⟩

/-- **The spoofed netsplit ends and leaves no nick** in exactly those states a client can be in in
which the name of every listed nick leads back to that nick: it is there, has no `!` in it and is
not, up to case, the user's own. -/
theorem reachable_netsplit {origin : Option Str} {nick username hostname : Str} {c : Client}
    (h : Reach clientStep (fun _ _ => True) (Client.welcomed origin nick username hostname) c)
    (now : Long) (myName lostServer : Option Str) :
    ∃ s, c.state = some s ∧
      (NetsplitEmpties now c s myName lostServer ↔ Netsplittable s) := by
  obtain ⟨hc, s, hs, hreach⟩ := clientStep_reach h rfl rfl
  obtain ⟨hg, hh⟩ := reachable_hostmaskNicks hreach
  exact ⟨s, hs, netsplitEmpties_iff hc hs hg hh myName lostServer⟩

/-- A channel with the user and another nick. -/
def joinedPair : List Input := [inputOf ":me!u@h JOIN #c", inputOf ":foo!f@h JOIN #c"]

theorem reachable_netsplit_pair : ∃ c s,
    Reach clientStep (fun _ _ => True) (Client.welcomed none (str "me") (str "u") (str "h")) c ∧
      s.nicks ≠ [] ∧ NetsplitEmpties long0 c s (some (str "proxy")) (some (str "irc")) := by
  have run : (admittedRun clientStep (fun _ _ => True)
      (Client.welcomed none (str "me") (str "u") (str "h")) joinedPair).bind (fun c =>
        c.state.map fun s => (namesOf s s.nicks, nameOf s meRef, casemapOf (some s.info))) =
      some ([some (str "foo")], some (str "me"), .unknown) := by decide +kernel
  obtain ⟨c, hrun, hst⟩ := Option.bind_eq_some_iff.mp run
  obtain ⟨s, hs, hfacts⟩ := Option.map_eq_some_iff.mp hst
  simp only [Prod.mk.injEq] at hfacts
  obtain ⟨hnames, hme, hmap⟩ := hfacts
  have hstart : Reach clientStep (fun _ _ => True)
      (Client.welcomed none (str "me") (str "u") (str "h")) _ := .refl
  have hr := hstart.of_admittedRun hrun
  have hn : Netsplittable s := by
    intro g hg
    have hfoo : nameOf s g ∈ namesOf s s.nicks := List.mem_map_of_mem hg
    rw [hnames, List.mem_singleton] at hfoo
    exact ⟨_, _, hfoo, by decide +kernel, hme, by rw [hmap]; decide +kernel⟩
  obtain ⟨s', hs', hiff⟩ :=
    reachable_netsplit hr long0 (some (str "proxy")) (some (str "irc"))
  rw [hs] at hs'
  cases hs'
  refine ⟨c, s, hr, fun hnil => ?_, hiff.mpr hn⟩
  rw [hnil] at hnames
  cases hnames

/-- A nick that once talked to the user is on the list for good when the user takes its name. -/
theorem netsplit_spins_on_own_nick : ¬ ∀ (origin : Option Str) (nick username hostname : Str)
    (c : Client) (s : NetworkState) (now : Long) (myName lostServer : Option Str),
    Reach clientStep (fun _ _ => True) (Client.welcomed origin nick username hostname) c →
      c.state = some s → NetsplitEmpties now c s myName lostServer := by
  intro claim
  have run : (admittedRun clientStep (fun _ _ => True)
      (Client.welcomed none (str "me") (str "u") (str "h"))
      [inputOf ":foo!f@h PRIVMSG me :hello", inputOf ":me!u@h NICK foo"]).bind (fun c =>
        c.state.map fun s => (namesOf s s.nicks, nameOf s meRef)) =
      some ([some (str "foo")], some (str "foo")) := by decide +kernel
  obtain ⟨c, hrun, hst⟩ := Option.bind_eq_some_iff.mp run
  obtain ⟨s, hs, hfacts⟩ := Option.map_eq_some_iff.mp hst
  simp only [Prod.mk.injEq] at hfacts
  obtain ⟨hnames, hme⟩ := hfacts
  have hstart : Reach clientStep (fun _ _ => True)
      (Client.welcomed none (str "me") (str "u") (str "h")) _ := .refl
  have hr := hstart.of_admittedRun hrun
  obtain ⟨hc, s', hs', hreach⟩ := clientStep_reach hr rfl rfl
  rw [hs] at hs'
  cases hs'
  obtain ⟨hg, hh⟩ := reachable_hostmaskNicks hreach
  have hn := (netsplitEmpties_iff hc hs hg hh _ _).mp
    (claim _ _ _ _ c s long0 (some (str "proxy")) (some (str "irc")) hr hs)
  cases hl : s.nicks with
  | nil =>
      rw [hl] at hnames
      cases hnames
  | cons g gs =>
      have hmem : g ∈ s.nicks := hl ▸ List.mem_cons_self
      have hfoo : nameOf s g ∈ namesOf s s.nicks := List.mem_map_of_mem hmem
      rw [hnames, List.mem_singleton] at hfoo
      obtain ⟨a, me, ha, -, hme', hdiff⟩ := hn g hmem
      rw [hfoo] at ha
      rw [hme] at hme'
      cases ha
      cases hme'
      exact hdiff rfl

end Ctrlproxy
