import Ctrlproxy.Client.CachedBans
import Ctrlproxy.State.Replies

/-!
# Client — the WHO reply a client is given

`client_try_cache` answers the query `WHO #c` from the memberships of the channel and their nicks
(`client_try_cache_who` of `src/cache.c`), if each membership had a 352 line of its own that is young
enough.  What is sent for a member is what that line said as long as nothing else was said of the
nick (`whoQuery_answersWho`).
-/

namespace Ctrlproxy
open Outcome

/-- `WHO #c`. -/
def WhoQuery (l : IrcLine) (name : Str) : Prop :=
  ∃ cmd, l.args = [cmd, name] ∧ baseEq (some cmd) (str "WHO") = true

/-- A 352 line without its target. -/
def whoRow (name nick : Str) (x : WhoReply) : List Str :=
  [responseStr 352, name, x.username, x.hostname, x.server, nick, x.flags,
    decimalInt x.hops ++ chr ' ' :: x.realname]

/-- A 315 line without its target. -/
def endOfWhoRow (name : Str) : List Str := [responseStr 315, name, str "End of /WHO list."]

/-- The row for a member: its nick now, and what the last 352 line said of it. -/
def MemberRow (net : NetworkState) (g : WhoView) (name : Str) (m : Ref) (row : List Str) : Prop :=
  ∃ cn n nick x, net.membHeap m = some cn ∧ net.nickHeap cn.globalNick = some n ∧
    n.nick = some nick ∧ g m = some x ∧ row = whoRow name nick x

/-- The client was told one row for each member of the channel, and the end of the list. -/
def AnswersWho (c : Client) (net : NetworkState) (g : WhoView) (name : Str) (c' : Client) : Prop :=
  ∃ r ch rows, findChannel net name = .ok (some r) ∧ net.chanHeap r = some ch ∧
    List.Forall₂ (MemberRow net g name) ch.nicks rows ∧
    c'.told = c.told ++ (rows ++ [endOfWhoRow name])

section
variable {now : Long} {c c' : Client} {net : NetworkState} {g : WhoView} {l : IrcLine} {name : Str}
  {maxWhoAge : ℤ} {ms : List Ref} {m : Ref}

/-- A response that the client is told whole. -/
theorem clientSendResponse_told {code n : ℕ} {w : Str} {k : Command} {ap : List (Option Str)} {b : Bool}
    (hc : c.connected = true)
    (hk : (ircCommands.find? fun e => baseEq (some (responseStr code)) e.1) = some (w, n, k))
    (h302 : k ≠ .c302) (h : clientSendResponse now c code ap = .ok (b, c')) :
    c'.connected = true ∧ c'.told = c.told ++ [responseStr code :: vaList ap] := by
  rw [clientSendResponse] at h
  split at h
  · cases h
  obtain ⟨target, -, h⟩ := bind_eq_ok h
  set line := vircParseResponse c.defaultOrigin target code ap with hline
  have hcommand : commandOf line ≠ some .c302 := by
    rw [hline, commandOf, vircParseResponse]
    dsimp only
    rw [hk]
    dsimp only
    split
    · exact fun e => h302 (Option.some.inj e)
    · exact (Option.some_ne_none _).symm
  have told : ∀ c' : Client, c'.sent = c.sent ++ [(now, line)] →
      c'.told = c.told ++ [responseStr code :: vaList ap] := by
    intro c' hc'
    rw [Client.told, hc', List.map_append]
    rfl
  cases hs : c.state with
  | none =>
      rw [clientSendLine, if_neg (by simp [hc]), hs] at h
      cases h
      exact ⟨hc, told _ rfl⟩
  | some s =>
      obtain ⟨s', -, -, rfl⟩ := clientSendLine_inv hc hs h
      refine ⟨hc, told _ ?_⟩
      rw [strippedLine, if_neg hcommand]

theorem whoreply_row : (ircCommands.find? fun e => baseEq (some (responseStr 352)) e.1) =
    some (str "352", 8, .whoreply) := by decide

theorem endOfWho_row : (ircCommands.find? fun e => baseEq (some (responseStr 315)) e.1) =
    some (str "315", 1, .endWho) := by decide

/-- Every member that is young enough had a reply. -/
theorem whoFresh_replied (h : whoFresh now maxWhoAge net ms = .ok true) :
    ∀ m ∈ ms, ∃ cn, net.membHeap m = some cn ∧ cn.lastUpdate ≠ long0 := by
  induction ms with
  | nil => exact fun m hm => absurd hm List.not_mem_nil
  | cons m ms ih =>
      rw [whoFresh] at h
      obtain ⟨cn, hcn, h⟩ := bind_eq_ok h
      split at h
      · cases h
      next hold =>
      split at h
      · cases h
      · intro m' hm'
        rcases List.mem_cons.mp hm' with rfl | hm'
        · exact ⟨cn, NetworkState.memb_inv hcn, hold⟩
        · exact ih h m' hm'

/-- The rows for the members. -/
theorem sendWho_told (hheld : HoldsReplies g net) (hc : c.connected = true)
    (hfresh : ∀ m ∈ ms, ∃ cn, net.membHeap m = some cn ∧ cn.lastUpdate ≠ long0)
    (h : sendWho now net name ms c = .ok c') : c'.connected = true ∧
      ∃ rows, List.Forall₂ (MemberRow net g name) ms rows ∧ c'.told = c.told ++ rows := by
  induction ms generalizing c with
  | nil =>
      cases h
      exact ⟨hc, [], .nil, (List.append_nil _).symm⟩
  | cons m ms ih =>
      rw [sendWho] at h
      obtain ⟨cn, hcn, h⟩ := bind_eq_ok h
      obtain ⟨n, hn, h⟩ := bind_eq_ok h
      obtain ⟨⟨b, c₁⟩, hsend, h⟩ := bind_eq_ok h
      have hcn := NetworkState.memb_inv hcn
      have hn := NetworkState.nick_inv hn
      obtain ⟨hc₁, htold⟩ := clientSendResponse_told hc whoreply_row nofun hsend
      obtain ⟨cn', hcn', hupdate⟩ := hfresh m List.mem_cons_self
      cases hcn.symm.trans hcn'
      have hrec := hheld.held m cn n hcn hn
      cases hx : g m with
      | none =>
          rw [hx] at hrec
          exact absurd hrec hupdate
      | some x =>
          rw [hx] at hrec
          obtain ⟨nick, hnick⟩ := Option.ne_none_iff_exists'.mp hrec.named
          have row : MemberRow net g name m (whoRow name nick x) :=
            ⟨cn, n, nick, x, hcn, hn, hnick, hx, rfl⟩
          rw [hrec.username, hrec.hostname, hrec.server, hnick, hrec.flags, hrec.hops, hrec.realname]
            at htold
          obtain ⟨hc', rows, hrows, htold'⟩ :=
            ih hc₁ (fun m hm => hfresh m (List.mem_cons_of_mem _ hm)) h
          refine ⟨hc', whoRow name nick x :: rows, .cons row hrows, ?_⟩
          rw [htold', htold, List.append_assoc]
          rfl

/-- The query in one step. -/
theorem whoQuery_eq (h : WhoQuery l name) :
    clientTryCache now c net l maxWhoAge = clientTryCacheWho now c net maxWhoAge l := by
  obtain ⟨cmd, hargs, hcmd⟩ := h
  have hargc : l.argc ≠ 0 := by rw [IrcLine.argc, hargs]; exact Nat.succ_ne_zero _
  have h0 : l.args[0]? = some cmd := by rw [hargs]; rfl
  rw [clientTryCache, if_neg hargc, h0, baseEq_of_baseEq hcmd, baseEq_of_baseEq hcmd,
    baseEq_of_baseEq hcmd, baseEq_of_baseEq hcmd, if_neg (by decide), if_neg (by decide),
    if_neg (by decide), if_pos (by decide)]

/-- What an answered query did. -/
theorem clientTryCacheWho_inv (hq : WhoQuery l name)
    (h : clientTryCacheWho now c net maxWhoAge l = .ok (true, c')) : ∃ r ch c₁ b,
      findChannel net name = .ok (some r) ∧ net.chanHeap r = some ch ∧
      whoFresh now maxWhoAge net ch.nicks = .ok true ∧ sendWho now net name ch.nicks c = .ok c₁ ∧
      clientSendResponse now c₁ 315 [some name, some (str "End of /WHO list.")] = .ok (b, c') := by
  obtain ⟨cmd, hargs, -⟩ := hq
  have h1 : l.argStr 1 = .ok name := IrcLine.argStr_eq (by rw [hargs]; rfl)
  rw [clientTryCacheWho] at h
  split at h
  · cases h
  rw [h1, ok_bind] at h
  split at h
  · cases h
  split at h
  · cases h
  split at h
  · cases h
  obtain ⟨o, hfound, h⟩ := bind_eq_ok h
  cases o with
  | none => cases h
  | some r =>
      obtain ⟨ch, hch, h⟩ := bind_eq_ok h
      obtain ⟨b, hfresh, h⟩ := bind_eq_ok h
      split at h
      · next hb =>
        obtain ⟨c₁, hsend, h⟩ := bind_eq_ok h
        obtain ⟨⟨b', c₂⟩, hend, h⟩ := bind_eq_ok h
        cases h
        exact ⟨r, ch, c₁, b', hfound, NetworkState.chan_inv hch, hb ▸ hfresh, hsend, hend⟩
      · cases h

/-- **Cached WHO replies are the last 352 lines**, after every run of lines none of which says
anything new of the nick of a member that a 352 line told of, for every connected client and every
query that is answered. -/
theorem whoQuery_answersWho {nick username hostname : Str}
    (h : Reach whoRunStep (fun x i => WhoLine x i.2)
      (networkStateInit nick username hostname, fun _ => none) (net, g))
    (hc : c.connected = true) (hq : WhoQuery l name)
    (hans : clientTryCache now c net l maxWhoAge = .ok (true, c')) : AnswersWho c net g name c' := by
  obtain ⟨-, hheld⟩ := whoRun_holds h
  rw [whoQuery_eq hq] at hans
  obtain ⟨r, ch, c₁, b, hfound, hch, hfresh, hsend, hend⟩ := clientTryCacheWho_inv hq hans
  obtain ⟨hc₁, rows, hrows, htold⟩ := sendWho_told hheld hc (whoFresh_replied hfresh) hsend
  obtain ⟨-, htold'⟩ := clientSendResponse_told hc₁ endOfWho_row nofun hend
  refine ⟨r, ch, rows, hfound, hch, hrows, ?_⟩
  rw [htold', htold, List.append_assoc]
  rfl

end

/-! ### A channel with the user on it -/

/-- What the examples ask. -/
def askWho : IrcLine := (inputOf "WHO #c").2

theorem askWho_query : WhoQuery askWho (str "#c") :=
  ⟨str "WHO", by simp [askWho, inputOf, ircParseLine, parseArgs, str, chr], by decide⟩

/-- A second. -/
def long1 : Long := ⟨1, by decide⟩

/-- The user joins, with the name that the server has for them. -/
def whoJoins : Input := inputOf ":me!u@h JOIN #c"

def whoNick : Input := inputOf ":me!u@h NICK you"

/-- A reply for the user. -/
def whoOld : Input := (long1, (inputOf ":s 352 me #c u h srv me H :0 Old Name").2)

/-- Another reply for the user. -/
def whoNew : Input := (long1, (inputOf ":s 352 me #c u h srv me H :0 New Name").2)

/-- What is told of the user. -/
def oldRow (nick : Str) : List Str :=
  whoRow (str "#c") nick ⟨str "u", str "h", str "srv", str "H", 0, str "Old Name"⟩

/-- The state and the replies of a user who was just welcomed. -/
def unreplied : NetworkState × WhoView := (freshUser, fun _ => none)

/-- The user joins, is replied to, and takes another nick. -/
theorem whoQuery_answersWho_renamed : ∃ x c',
    Reach whoRunStep (fun x i => WhoLine x i.2) unreplied x ∧
      clientTryCache long1 freshClient x.1 askWho 60 = .ok (true, c') ∧
      c'.told = [oldRow (str "you"), endOfWhoRow (str "#c")] ∧
      AnswersWho freshClient x.1 x.2 (str "#c") c' := by
  have run : (stateStep freshUser whoJoins >>= fun s₁ => stateStep s₁ whoOld >>= fun s₂ =>
      stateStep s₂ whoNick >>= fun s₃ => clientTryCache long1 freshClient s₃ askWho 60 >>= fun a =>
      pure (decide (
        (repliedMember s₁ whoOld.2 = some 2 ∧
          findNetworkNick s₁ (whoOld.2.args[6]?.getD []) = .ok (some meRef) ∧
          (s₁.membHeap 2).map (·.globalNick) = some meRef ∧
          (s₁.nickHeap meRef).map (·.fullname) = some none) ∧
        a.1 = true ∧ a.2.told = [oldRow (str "you"), endOfWhoRow (str "#c")]))) = .ok true := by
    decide +kernel
  obtain ⟨s₁, h₁, run⟩ := bind_eq_ok run
  obtain ⟨s₂, h₂, run⟩ := bind_eq_ok run
  obtain ⟨s₃, h₃, run⟩ := bind_eq_ok run
  obtain ⟨⟨b, c'⟩, hans, run⟩ := bind_eq_ok run
  obtain ⟨⟨hmember, hfound, hmemb, hname⟩, htrue, htold⟩ := of_decide_eq_true (Except.ok.inj run)
  dsimp only at htrue htold
  subst htrue
  obtain ⟨cn, hcn, hglobal⟩ := Option.map_eq_some_iff.mp hmemb
  obtain ⟨n, hn, hfull⟩ := Option.map_eq_some_iff.mp hname
  have line₁ : WhoLine unreplied whoJoins.2 := .first fun h => absurd h (by decide +kernel)
  have reply : ReplyAgrees (fun _ => none) s₁ whoOld.2 ⟨str "u", str "h", str "srv", str "H", 0, str "Old Name"⟩ := by
    refine ⟨by decide, fun _ _ _ _ hy => (by cases hy), fun m hm => ?_⟩
    cases hmember.symm.trans hm
    exact ⟨cn, n, hcn, hglobal ▸ hfound, hglobal.symm ▸ hn, .inl hfull⟩
  have line₂ : WhoLine (s₁, fun _ => none) whoOld.2 := .first fun _ y hy => by
    have hwho : whoReply whoOld.2 = some ⟨str "u", str "h", str "srv", str "H", 0, str "Old Name"⟩ := by
      decide +kernel
    cases hwho.symm.trans hy
    exact reply
  have step₁ : whoRunStep unreplied whoJoins = .ok (s₁, fun _ => none) := by
    rw [whoRunStep, show stateStep unreplied.1 whoJoins = .ok s₁ from h₁, whoStep,
      if_neg (by decide +kernel)]
    rfl
  obtain ⟨g₂, step₂⟩ : ∃ g, whoRunStep (s₁, fun _ => none) whoOld = .ok (s₂, g) :=
    ⟨_, by rw [whoRunStep, h₂]; rfl⟩
  obtain ⟨g₃, step₃⟩ : ∃ g, whoRunStep (s₂, g₂) whoNick = .ok (s₃, g) :=
    ⟨_, by rw [whoRunStep, h₃]; rfl⟩
  have line₃ : WhoLine (s₂, g₂) whoNick.2 :=
    .other (by decide +kernel) (by decide +kernel) (by decide +kernel)
  have joined : Reach whoRunStep (fun x i => WhoLine x i.2) unreplied (s₁, fun _ => none) :=
    .step (i := whoJoins) .refl line₁ step₁
  have replied : Reach whoRunStep (fun x i => WhoLine x i.2) unreplied (s₂, g₂) :=
    .step (i := whoOld) joined line₂ step₂
  have reach : Reach whoRunStep (fun x i => WhoLine x i.2) unreplied (s₃, g₃) :=
    .step (i := whoNick) replied line₃ step₃
  exact ⟨_, c', reach, hans, htold, whoQuery_answersWho reach rfl askWho_query hans⟩

/-- A real name that is known is not replaced: the last reply is not what the client is told. -/
theorem who_keeps_old_name : ¬ ∀ x c', Reach whoRunStep (fun _ _ => True) unreplied x →
    clientTryCache long1 freshClient x.1 askWho 60 = .ok (true, c') →
    AnswersWho freshClient x.1 x.2 (str "#c") c' := by
  intro claim
  have run : (stateStep freshUser whoJoins >>= fun s₁ => stateStep s₁ whoOld >>= fun s₂ =>
      stateStep s₂ whoNew >>= fun s₃ => clientTryCache long1 freshClient s₃ askWho 60 >>= fun a =>
      pure (decide (repliedMember s₂ whoNew.2 = some 2 ∧ findChannel s₃ (str "#c") = .ok (some 1) ∧
        (s₃.chanHeap 1).map (·.nicks) = some [2] ∧
        a.1 = true ∧ a.2.told = [oldRow (str "me"), endOfWhoRow (str "#c")]))) = .ok true := by
    decide +kernel
  obtain ⟨s₁, h₁, run⟩ := bind_eq_ok run
  obtain ⟨s₂, h₂, run⟩ := bind_eq_ok run
  obtain ⟨s₃, h₃, run⟩ := bind_eq_ok run
  obtain ⟨⟨b, c'⟩, hans, run⟩ := bind_eq_ok run
  obtain ⟨hmember, hfound, hnicks, htrue, htold⟩ := of_decide_eq_true (Except.ok.inj run)
  dsimp only at htrue htold
  subst htrue
  have joined : whoRunStep unreplied whoJoins = .ok (s₁, whoStep freshUser (fun _ => none) whoJoins.2) := by
    rw [whoRunStep, show stateStep unreplied.1 whoJoins = .ok s₁ from h₁]
    rfl
  have replied {s s' : NetworkState} {i : Input} (g : WhoView) (h : stateStep s i = .ok s') :
      whoRunStep (s, g) i = .ok (s', whoStep s g i.2) := by
    rw [whoRunStep, h]
    rfl
  have reach : Reach whoRunStep (fun _ _ => True) unreplied
      (s₃, whoStep s₂ (whoStep s₁ (whoStep freshUser (fun _ => none) whoJoins.2) whoOld.2) whoNew.2) :=
    ((Reach.step .refl trivial joined).step trivial (replied _ h₂)).step trivial (replied _ h₃)
  obtain ⟨r, ch, rows, hr, hch, hrows, hsent⟩ := claim _ c' reach hans
  cases hfound.symm.trans hr
  obtain ⟨ch', hch', hlist⟩ := Option.map_eq_some_iff.mp hnicks
  cases hch'.symm.trans hch
  rw [hlist] at hrows
  cases hrows with
  | cons row rest =>
  cases rest
  obtain ⟨cn, n, nick, x, -, -, -, hx, rfl⟩ := row
  have hwho : whoReply whoNew.2 =
      some ⟨str "u", str "h", str "srv", str "H", 0, str "New Name"⟩ := by
    decide +kernel
  dsimp only at hx
  rw [whoStep, if_pos (by decide +kernel), hmember] at hx
  dsimp only at hx
  rw [Function.update_self, hwho] at hx
  cases hx
  rw [htold] at hsent
  have last : (oldRow (str "me")).getLast? = some (str "0 New Name") :=
    congrArg (fun rows : List (List Str) => rows.head?.bind List.getLast?) hsent
  exact absurd last (by decide +kernel)

end Ctrlproxy
