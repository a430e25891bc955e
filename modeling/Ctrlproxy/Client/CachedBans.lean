import Ctrlproxy.Client.Cache
import Ctrlproxy.State.Bans

/-!
# Client — the ban list a client is given

`client_try_cache` answers the query `MODE #c b` with the list of the channel (`src/cache.c`).  It
does so for every channel the user is on: whether the list was ever fetched
(`chanmode_nicklist_present`) is not asked.

`AnswersBans` is what an answer should be: the bans the server told, in a listing that is over.  The
query gets one exactly when it is forwarded anyway, or when the list was fetched and no listing is
in progress (`Fetched`).
-/

namespace Ctrlproxy
open Outcome

/-- `MODE #c b`. -/
def BanQuery (l : IrcLine) (name : Str) : Prop :=
  ∃ cmd, l.args = [cmd, name, str "b"] ∧ baseEq (some cmd) (str "MODE") = true

/-- The query is answered with what the server told of the bans, after a complete listing, or it is
forwarded. -/
def AnswersBans (now : Long) (c : Client) (net : NetworkState) (g : BanViews) (l : IrcLine)
    (name : Str) (maxWhoAge : ℤ) : Prop :=
  Total (clientTryCache now c net l maxWhoAge) fun x => x.1 = true →
    ∃ r ch, findChannel net name = .ok (some r) ∧ net.chanHeap r = some ch ∧
      (g r).complete = true ∧ (g r).listing = false ∧
      x.2.told = c.told ++ ((g r).bans.map (banRow ch.name) ++ [endOfBansRow ch.name])

/-- The list of the channel was fetched, and no listing is in progress. -/
def Fetched (net : NetworkState) (name : Str) : Prop :=
  ∀ r ch, findChannel net name = .ok (some r) → net.chanHeap r = some ch →
    ch.chanmodeNicklistPresent banSlot = true ∧ ch.banlistStarted = false

section
variable {now : Long} {c : Client} {net : NetworkState} {g : BanViews} {l : IrcLine} {name : Str}
  {maxWhoAge : ℤ} {r : Ref}

/-- The query in one step: what is sent does not depend on what was fetched. -/
theorem banQuery_eq (h : BanQuery l name) (hcomma : chr ',' ∉ name) :
    clientTryCache now c net l maxWhoAge = (findChannel net name >>= fun o => match o with
      | none => pure (false, c)
      | some r => clientSendBanlist now c net r >>= fun x => pure (true, x.2)) := by
  obtain ⟨cmd, hargs, hcmd⟩ := h
  have hargc : l.argc = 3 := by rw [IrcLine.argc, hargs]; rfl
  have h0 : l.args[0]? = some cmd := by rw [hargs]; rfl
  have h1 : l.argStr 1 = .ok name := by rw [IrcLine.argStr, if_pos (by omega), hargs]; rfl
  have h2 : l.argStr 2 = .ok (str "b") := by rw [IrcLine.argStr, if_pos (by omega), hargs]; rfl
  have letters : ∀ r, answerModes now net r (str "b") c =
      clientSendBanlist now c net r >>= fun x => pure (true, x.2) := by
    intro r
    rw [show str "b" = [chr 'b'] from rfl, answerModes, if_pos rfl]
    rfl
  rw [clientTryCache, if_neg (by omega), h0, if_pos hcmd, clientTryCacheMode, if_neg (by omega), h1,
    ok_bind, if_neg hcomma, if_pos hargc]
  cases findChannel net name with
  | error e => rfl
  | ok o =>
      cases o with
      | none => rfl
      | some r =>
          refine Eq.trans ?_ (letters r)
          rw [ok_bind]
          dsimp only
          rw [h2, ok_bind]

/-- A query that names several channels is forwarded. -/
theorem banQuery_comma (h : BanQuery l name) (hcomma : chr ',' ∈ name) :
    clientTryCache now c net l maxWhoAge = .ok (false, c) := by
  obtain ⟨cmd, hargs, hcmd⟩ := h
  have hargc : l.argc = 3 := by rw [IrcLine.argc, hargs]; rfl
  have h0 : l.args[0]? = some cmd := by rw [hargs]; rfl
  have h1 : l.argStr 1 = .ok name := by rw [IrcLine.argStr, if_pos (by omega), hargs]; rfl
  rw [clientTryCache, if_neg (by omega), h0, if_pos hcmd, clientTryCacheMode, if_neg (by omega), h1,
    ok_bind, if_pos hcomma]
  rfl

theorem answersBans_of_forwarded (h : clientTryCache now c net l maxWhoAge = .ok (false, c)) :
    AnswersBans now c net g l name maxWhoAge :=
  ensures_of_eq_ok h fun hf => by cases hf

/-- A client that asks for the bans of a known channel is told what the server told. -/
theorem Attended.answered (hc : Attended c) (ht : Tracks net g) (hq : BanQuery l name)
    {ch : ChannelState} (hcomma : chr ',' ∉ name) (hr : findChannel net name = .ok (some r))
    (hch : net.chanHeap r = some ch) :
    Total (clientTryCache now c net l maxWhoAge) (fun x => x.1 = true ∧
      x.2.told = c.told ++ ((g r).bans.map (banRow ch.name) ++ [endOfBansRow ch.name])) := by
  rw [banQuery_eq hq hcomma, hr, ok_bind]
  have hheld := ht.held r ch hch
  simp only [BanView.HeldBy, heldBans, Prod.mk.injEq] at hheld
  have bans : ∀ i, modeSlot (chr 'b') = .ok i →
      (ch.chanmodeNicklist i).map (·.hostmask) = (g r).bans.map some := by
    intro i hi
    cases modeSlot_ban.symm.trans hi
    exact hheld.2.2
  exact (hc.sendBanlist hch bans).bind fun x hx => ⟨rfl, hx.2⟩

/-- **Cached ban lists are complete, where they were fetched.** After every run of lines that are
read as they are meant, for every client that is served and every query `MODE #c b`: the query is
forwarded, or answered with exactly the bans the server told in a listing that is over, if and only
if it names several channels or a channel whose list was fetched and is not being listed. -/
theorem banQuery_answersBans_iff {nick username hostname : Str}
    (h : Reach banRunStep (fun x i => BanLine x.1 i.2)
      (networkStateInit nick username hostname, fun _ => .unknown) (net, g))
    (hc : Attended c) (hq : BanQuery l name) :
    AnswersBans now c net g l name maxWhoAge ↔ chr ',' ∈ name ∨ Fetched net name := by
  obtain ⟨hg, ht⟩ := banRun_tracks h
  constructor
  · intro hans
    by_contra hnot
    obtain ⟨hcomma, hfetched⟩ := not_or.mp hnot
    refine hfetched fun r ch hr hch => ?_
    obtain ⟨x, hx, htrue, -⟩ := (hc.answered ht hq hcomma hr hch).exists_ok
    obtain ⟨r', ch', hr', hch', hcomplete, hlisting, -⟩ := hans.of_ok hx htrue
    cases hr.symm.trans hr'
    cases hch.symm.trans hch'
    have hheld := ht.held r ch hch
    simp only [BanView.HeldBy, heldBans, Prod.mk.injEq] at hheld
    exact ⟨hheld.1.trans hcomplete, hheld.2.1.trans hlisting⟩
  · intro hok
    by_cases hcomma : chr ',' ∈ name
    · exact answersBans_of_forwarded (banQuery_comma hq hcomma)
    · have hfetched := hok.resolve_left hcomma
      obtain ⟨o, ho, hmem⟩ := (findChannel_total hg name).exists_ok
      cases o with
      | none =>
          refine answersBans_of_forwarded ?_
          rw [banQuery_eq hq hcomma, ho]
          rfl
      | some r =>
          obtain ⟨ch, hch, -⟩ := hg.chan_live r (hmem r rfl)
          obtain ⟨hpresent, hstarted⟩ := hfetched r ch ho hch
          have hheld := ht.held r ch hch
          simp only [BanView.HeldBy, heldBans, Prod.mk.injEq] at hheld
          refine (hc.answered ht hq hcomma ho hch).imp fun x hx _ => ⟨r, ch, ho, hch, ?_, ?_, hx.2⟩
          · exact hheld.1.symm.trans hpresent
          · exact hheld.2.1.symm.trans hstarted

end

/-- A user who was just welcomed, and nothing was told. -/
def freshViews : NetworkState × BanViews := (freshUser, fun _ => .unknown)

/-- A client that was told nothing yet. -/
def freshClient : Client := Client.quiet true (some (str "net")) freshUser

theorem freshClient_attended : Attended freshClient :=
  ⟨rfl, fun s hs => by cases hs; exact networkStateInit_whole _ _ _⟩

/-- What the examples ask. -/
def askBans : IrcLine := (inputOf "MODE #c b").2

theorem askBans_query : BanQuery askBans (str "#c") :=
  ⟨str "MODE", by simp [askBans, inputOf, ircParseLine, parseArgs, str, chr], by decide⟩

/-- The user, on no channel yet, joins one, and a listing with a ban is read to its end. -/
theorem listed_reach {x₀ : NetworkState × BanViews} {join entry ended : Input} {name : Str} {r : Ref}
    {v : BanView} (hnone : ∀ r, x₀.1.chanHeap r = none) (hjoin : commandOf join.2 = some .join)
    (hentry : commandOf entry.2 = some .banlistEntry) (hargc : 3 < entry.2.argc)
    (hended : commandOf ended.2 = some .endBanlist) (hname : ended.2.args[2]? = some name)
    (run : (banRunStep x₀ join >>= fun x₁ => banRunStep x₁ entry >>= fun x₂ =>
      (banRunStep x₂ ended).map fun x₃ => (findChannel x₂.1 name,
        (x₂.1.chanHeap r).map (·.banlistStarted), x₃.2 r)) = .ok (.ok (some r), some true, v)) :
    ∃ x, Reach banRunStep (fun x i => BanLine x.1 i.2) x₀ x ∧ x.2 r = v := by
  obtain ⟨x₁, h₁, run⟩ := bind_eq_ok run
  obtain ⟨x₂, h₂, run⟩ := bind_eq_ok run
  obtain ⟨x₃, h₃, hfacts⟩ := map_eq_ok run
  simp only [Prod.mk.injEq] at hfacts
  obtain ⟨hfound, hstarted, hview⟩ := hfacts
  have line₁ : BanLine x₀.1 join.2 := by
    refine ⟨fun _ _ _ _ _ r ch _ hch => ?_, ?_, ?_, ?_⟩
    · rw [hnone] at hch
      cases hch
    all_goals
      rw [hjoin]
      exact nofun
  have line₂ : BanLine x₁.1 entry.2 := by
    refine ⟨?_, fun _ => hargc, ?_, ?_⟩
    all_goals
      rw [hentry]
      exact nofun
  have line₃ : BanLine x₂.1 ended.2 := by
    refine ⟨?_, ?_, fun _ n hn r' ch hr hch hno => ?_, ?_⟩
    case refine_3 =>
      cases hname.symm.trans hn
      cases hfound.symm.trans hr
      rw [hch, Option.map_some, hno] at hstarted
      cases hstarted
    all_goals
      rw [hended]
      exact nofun
  have reach₁ : Reach banRunStep (fun x i => BanLine x.1 i.2) x₀ x₁ := Reach.step .refl line₁ h₁
  have reach₂ : Reach banRunStep (fun x i => BanLine x.1 i.2) x₀ x₂ := reach₁.step line₂ h₂
  exact ⟨x₃, reach₂.step line₃ h₃, hview⟩

/-- The user joins, a ban is listed, and the query is answered. -/
theorem banQuery_answersBans_iff_listed : ∃ x,
    Reach banRunStep (fun x i => BanLine x.1 i.2) freshViews x ∧
      x.2 1 = ⟨true, false, [str "*!*@x"]⟩ ∧
      (AnswersBans long0 freshClient x.1 x.2 askBans (str "#c") 0 ↔
        chr ',' ∈ str "#c" ∨ Fetched x.1 (str "#c")) := by
  obtain ⟨x, run, hview⟩ := @listed_reach freshViews (inputOf ":me!u@h JOIN #c")
    (inputOf ":s 367 me #c *!*@x") (inputOf ":s 368 me #c :End") (str "#c") 1
    ⟨true, false, [str "*!*@x"]⟩ (fun _ => rfl) (by decide +kernel) (by decide +kernel)
    (by decide +kernel) (by decide +kernel) (by decide +kernel) (by decide +kernel)
  exact ⟨x, run, hview, @banQuery_answersBans_iff long0 freshClient x.1 x.2 askBans (str "#c") 0
    (str "me") (str "u") (str "h") run freshClient_attended askBans_query⟩

/-- A query that is answered without a complete listing, after one line. -/
theorem not_answersBans_of_run {x₀ : NetworkState × BanViews} {i : Input} {now : Long} {c : Client}
    {l : IrcLine} {name : Str} {r : Ref} {maxWhoAge : ℤ}
    (run : (banRunStep x₀ i).map (fun x => (findChannel x.1 name, (x.2 r).complete,
      (clientTryCache now c x.1 l maxWhoAge).map (·.1))) = .ok (.ok (some r), false, .ok true)) :
    ¬ ∀ x, Reach banRunStep (fun _ _ => True) x₀ x →
      AnswersBans now c x.1 x.2 l name maxWhoAge := by
  intro claim
  obtain ⟨x, hx, hfacts⟩ := map_eq_ok run
  simp only [Prod.mk.injEq] at hfacts
  obtain ⟨hfound, hcomplete, hanswer⟩ := hfacts
  obtain ⟨y, hy, htrue⟩ := map_eq_ok hanswer
  have hans := claim x (Reach.step .refl trivial hx)
  obtain ⟨r', -, hr, -, hfetched, -⟩ := Ensures.of_ok hans hy htrue
  cases hfound.symm.trans hr
  rw [hcomplete] at hfetched
  cases hfetched

/-- A list that was never fetched is answered as an empty one, right after the user joined. -/
theorem unfetched_bans_answered : ¬ ∀ x, Reach banRunStep (fun _ _ => True) freshViews x →
    AnswersBans long0 freshClient x.1 x.2 askBans (str "#c") 0 :=
  @not_answersBans_of_run freshViews (inputOf ":me!u@h JOIN #c") long0 freshClient askBans
    (str "#c") 1 0 (by decide +kernel)

end Ctrlproxy
