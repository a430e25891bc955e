import Ctrlproxy.Lib.Lists
import Ctrlproxy.Proxy.Isolation
import Ctrlproxy.State.Nicks

/-!
# Proxy — learned passwords

`cache_nickserv_pass` puts a password at the first entry it takes for the user's nick, or in front of
all others if there is none.  `nickserv_find_nick` takes other entries: those that `irccmp` says are
for the nick, whatever their password.  So what was learned is found exactly when the first entry that
either takes is one for both (`cacheNickservPass_learned_iff`), or the password was found before.
-/

namespace Ctrlproxy
open Outcome

/-! ### The entries the two take -/

def KeyfileEntry.pass : KeyfileEntry → Option Str
  | everywhere _ pass => some pass
  | on _ _ pass => pass

/-- An entry with the password that was learned. -/
def KeyfileEntry.learn (pass : Str) : KeyfileEntry → KeyfileEntry
  | everywhere nick old => everywhere nick old
  | on network nick _ => on network nick (some pass)

/-- `nickserv_find_nick` takes the entry. -/
def findsEntry (n : IrcNetwork) (nick : Str) : KeyfileEntry → Bool
  | .everywhere k _ => n.info.casemapping.fold k = n.info.casemapping.fold nick
  | .on network k _ => n.info.casemapping.fold k = n.info.casemapping.fold nick ∧ strcasecmpEq network n.name

/-- `cache_nickserv_pass` takes the entry. -/
def learnsEntry (n : IrcNetwork) (pass : Str) : KeyfileEntry → Bool
  | .everywhere k old =>
      n.externalInfo.casemapping.fold k = n.externalInfo.casemapping.fold n.nick ∧ old = pass
  | .on network k _ => strcasecmpEq network n.name ∧ strcasecmpEq k n.nick

/-- What is found for the user's nick is what was learned, and for every other nick and every other
network what was found before. -/
structure Learned (n : IrcNetwork) (pass : Str) (es es' : List KeyfileEntry) : Prop where
  found : nickservFindNick n (some n.nick) es' = .ok (some pass)
  others : ∀ (n' : IrcNetwork) (nick : Str),
    ¬(strcasecmpEq n'.name n.name ∧
      n'.info.casemapping.fold nick = n'.info.casemapping.fold n.nick) →
    nickservFindNick n' (some nick) es' = nickservFindNick n' (some nick) es

/-- No entry is one to learn at, or the first that is taken for the nick at all is one to learn at and
one that is found, or the password was found before. -/
def FoundWhereLearned (n : IrcNetwork) (pass : Str) (es : List KeyfileEntry) : Prop :=
  (∀ e ∈ es, learnsEntry n pass e = false) ∨
  (∃ e, es.find? (fun e => findsEntry n n.nick e || learnsEntry n pass e) = some e ∧
    findsEntry n n.nick e = true ∧ learnsEntry n pass e = true) ∨
  (es.find? (findsEntry n n.nick)).bind KeyfileEntry.pass = some pass

section
variable {n n' : IrcNetwork} {nick pass : Str} {e : KeyfileEntry} {xs ys es : List KeyfileEntry}

theorem ircEq_info (info : NetworkInfo) (a b : Str) : ircEq (some info) (some a) (some b) =
    .ok (decide (info.casemapping.fold a = info.casemapping.fold b)) :=
  ircEq_fold (some info) a b

theorem strcasecmpEq_iff {a b : Str} :
    strcasecmpEq a b = true ↔ a.map Byte.lower = b.map Byte.lower := by
  simp only [strcasecmpEq, baseEq, beq_iff_eq]

/-- Strings equal up to ASCII case are equal under every mapping. -/
theorem fold_of_strcasecmpEq (m : Casemapping) {a b : Str} (h : strcasecmpEq a b = true) :
    m.fold a = m.fold b := by
  have hascii : Casemapping.ascii.fold a = Casemapping.ascii.fold b := strcasecmpEq_iff.mp h
  have hlast : Casemapping.ascii.last ≤ m.last := by cases m <;> decide
  exact Casemapping.fold_eq_of_last_le hlast hascii

@[simp] theorem findsEntry_learn (n : IrcNetwork) (nick pass : Str) (e : KeyfileEntry) :
    findsEntry n nick (e.learn pass) = findsEntry n nick e := by
  cases e <;> rfl

/-- An entry to learn at holds the password afterwards. -/
theorem pass_learn (h : learnsEntry n pass e = true) : (e.learn pass).pass = some pass := by
  cases e with
  | everywhere k old =>
      simp only [learnsEntry, decide_eq_true_eq] at h
      exact congrArg some h.2
  | on network k old => rfl

/-- The first entry that is taken has the password. -/
theorem nickservFindNick_eq (n : IrcNetwork) (nick : Str) (es : List KeyfileEntry) :
    nickservFindNick n (some nick) es = .ok ((es.find? (findsEntry n nick)).bind KeyfileEntry.pass) := by
  induction es with
  | nil => rfl
  | cons e es ih =>
      have step : nickservFindNick n (some nick) (e :: es) =
          ircEq (some n.info) (some e.nick) (some nick) >>= fun same =>
            if same then match e with
              | .everywhere _ pass => pure (some pass)
              | .on network _ pass =>
                  if strcasecmpEq network n.name then pure pass
                  else nickservFindNick n (some nick) es
            else nickservFindNick n (some nick) es := rfl
      rw [step, ircEq_info, ok_bind, List.find?_cons]
      cases e with
      | everywhere k old =>
          by_cases hk : n.info.casemapping.fold k = n.info.casemapping.fold nick
          · simp [findsEntry, KeyfileEntry.nick, KeyfileEntry.pass, hk]
          · simp [findsEntry, KeyfileEntry.nick, hk, ih]
      | on network k old =>
          by_cases hk : n.info.casemapping.fold k = n.info.casemapping.fold nick
          · cases hnet : strcasecmpEq network n.name with
            | true => simp [findsEntry, KeyfileEntry.nick, KeyfileEntry.pass, hk, hnet]
            | false => simp [findsEntry, KeyfileEntry.nick, hk, hnet, ih]
          · simp [findsEntry, KeyfileEntry.nick, hk, ih]

theorem cacheAt_everywhere (n : IrcNetwork) (pass k old : Str) (es : List KeyfileEntry) :
    cacheAt n (some pass) (.everywhere k old :: es) =
      (sameEntry n (some pass) k old).bind fun same =>
        if same then .ok (some (.everywhere k old :: es))
        else (cacheAt n (some pass) es).map (·.map (.everywhere k old :: ·)) := by
  have step : cacheAt n (some pass) (.everywhere k old :: es) =
      sameEntry n (some pass) k old >>= fun same =>
        if same then pure (some (.everywhere k old :: es))
        else cacheAt n (some pass) es >>= fun es' => pure (es'.map (.everywhere k old :: ·)) := rfl
  rw [step]
  cases sameEntry n (some pass) k old with
  | error e => rfl
  | ok same => cases same <;> rfl

theorem cacheAt_on (n : IrcNetwork) (pass network k : Str) (old : Option Str) (es : List KeyfileEntry) :
    cacheAt n (some pass) (.on network k old :: es) =
      if learnsEntry n pass (.on network k old) then .ok (some (.on network k (some pass) :: es))
      else (cacheAt n (some pass) es).map (·.map (.on network k old :: ·)) := by
  cases old with
  | none =>
      have step : cacheAt n (some pass) (.on network k none :: es) =
          if strcasecmpEq network n.name ∧ strcasecmpEq k n.nick then
            .ok (some (.on network k (some pass) :: es))
          else cacheAt n (some pass) es >>= fun es' => pure (es'.map (.on network k none :: ·)) := rfl
      simp only [step, learnsEntry, decide_eq_true_eq]
      rfl
  | some old =>
      have step : cacheAt n (some pass) (.on network k (some old) :: es) =
          if strcasecmpEq network n.name ∧ strcasecmpEq k n.nick then
            strcmpEq (some old) (some pass) >>= fun same => pure (some
              ((if same then .on network k (some old) else .on network k (some pass)) :: es))
          else cacheAt n (some pass) es >>= fun es' =>
            pure (es'.map (.on network k (some old) :: ·)) := rfl
      simp only [step, learnsEntry, decide_eq_true_eq]
      split
      · by_cases hold : old = pass
        · simp [strcmpEq, hold, pure_eq_ok]
        · simp [strcmpEq, hold, pure_eq_ok]
      · rfl

/-- The password is put at the first entry to learn at. -/
theorem cacheAt_cases (n : IrcNetwork) (pass : Str) (es : List KeyfileEntry) :
    (∀ e ∈ es, learnsEntry n pass e = false) ∧ cacheAt n (some pass) es = .ok none ∨
    ∃ xs e ys, es = xs ++ e :: ys ∧ (∀ x ∈ xs, learnsEntry n pass x = false) ∧
      learnsEntry n pass e = true ∧
      cacheAt n (some pass) es = .ok (some (xs ++ e.learn pass :: ys)) := by
  induction es with
  | nil => exact .inl ⟨nofun, rfl⟩
  | cons e es ih =>
      have later (hl : learnsEntry n pass e = false)
          (hc : cacheAt n (some pass) (e :: es) =
            (cacheAt n (some pass) es).map fun es' => es'.map (e :: ·)) :
          (∀ x ∈ e :: es, learnsEntry n pass x = false) ∧
            cacheAt n (some pass) (e :: es) = .ok none ∨
          ∃ xs x ys, e :: es = xs ++ x :: ys ∧ (∀ x ∈ xs, learnsEntry n pass x = false) ∧
            learnsEntry n pass x = true ∧
            cacheAt n (some pass) (e :: es) = .ok (some (xs ++ x.learn pass :: ys)) := by
        rcases ih with ⟨hno, hrun⟩ | ⟨xs, x, ys, rfl, hno, hx, hrun⟩
        · exact .inl ⟨List.forall_mem_cons.mpr ⟨hl, hno⟩, by rw [hc, hrun]; rfl⟩
        · exact .inr ⟨e :: xs, x, ys, rfl, List.forall_mem_cons.mpr ⟨hl, hno⟩, hx,
            by rw [hc, hrun]; rfl⟩
      cases e with
      | everywhere k old =>
          have hsame : sameEntry n (some pass) k old =
              .ok (learnsEntry n pass (.everywhere k old)) := by
            rw [sameEntry, ircEq_info, ok_bind]
            by_cases hk : n.externalInfo.casemapping.fold k = n.externalInfo.casemapping.fold n.nick
            · simp [learnsEntry, strcmpEq, hk]
            · simp [learnsEntry, hk, pure_eq_ok]
          cases hl : learnsEntry n pass (.everywhere k old) with
          | true =>
              refine .inr ⟨[], .everywhere k old, es, rfl, nofun, hl, ?_⟩
              rw [cacheAt_everywhere, hsame, hl]
              rfl
          | false =>
              refine later hl ?_
              rw [cacheAt_everywhere, hsame, hl]
              rfl
      | on network k old =>
          cases hl : learnsEntry n pass (.on network k old) with
          | true =>
              refine .inr ⟨[], .on network k old, es, rfl, nofun, hl, ?_⟩
              rw [cacheAt_on, if_pos hl]
              rfl
          | false =>
              refine later hl ?_
              rw [cacheAt_on, if_neg (by simp [hl])]

/-- The list after learning. -/
theorem cacheNickservPass_cases (n : IrcNetwork) (pass : Str) (p : Proxy) :
    ∃ p', cacheNickservPass true n (some pass) p = .ok p' ∧
      ((∀ e ∈ p.nickservNicks, learnsEntry n pass e = false) ∧
        p'.nickservNicks = .on n.name n.nick (some pass) :: p.nickservNicks ∨
      ∃ xs e ys, p.nickservNicks = xs ++ e :: ys ∧ (∀ x ∈ xs, learnsEntry n pass x = false) ∧
        learnsEntry n pass e = true ∧ p'.nickservNicks = xs ++ e.learn pass :: ys) := by
  have hgiven : (p.given (some pass)).nickservNicks = p.nickservNicks := rfl
  rw [cacheNickservPass, if_neg (by simp), hgiven]
  rcases cacheAt_cases n pass p.nickservNicks with ⟨hno, hrun⟩ | ⟨xs, e, ys, hsplit, hno, he, hrun⟩
  · rw [hrun]
    exact ⟨_, rfl, .inl ⟨hno, rfl⟩⟩
  · rw [hrun]
    exact ⟨_, rfl, .inr ⟨xs, e, ys, hsplit, hno, he, rfl⟩⟩

/-! ### What is found afterwards -/

/-- An entry to learn at is not found for another nick or on another network. -/
theorem findsEntry_other (hl : learnsEntry n pass (.on network k old) = true)
    (h : ¬(strcasecmpEq n'.name n.name ∧
      n'.info.casemapping.fold nick = n'.info.casemapping.fold n.nick)) :
    findsEntry n' nick (.on network k old) = false := by
  simp only [learnsEntry, decide_eq_true_eq] at hl
  refine decide_eq_false fun hf => h ⟨?_, ?_⟩
  · rw [strcasecmpEq_iff, ← strcasecmpEq_iff.mp hf.2, strcasecmpEq_iff.mp hl.1]
  · rw [← hf.1, fold_of_strcasecmpEq _ hl.2]

/-- For other nicks and networks an entry holds what it held. -/
theorem find_learn_other (hl : learnsEntry n pass e = true)
    (h : ¬(strcasecmpEq n'.name n.name ∧
      n'.info.casemapping.fold nick = n'.info.casemapping.fold n.nick)) :
    ((xs ++ e.learn pass :: ys).find? (findsEntry n' nick)).bind KeyfileEntry.pass =
      ((xs ++ e :: ys).find? (findsEntry n' nick)).bind KeyfileEntry.pass := by
  cases e with
  | everywhere k old => rfl
  | on network k old =>
      have hno := findsEntry_other hl h
      have hno' : findsEntry n' nick (KeyfileEntry.learn pass (.on network k old)) = false := by
        rw [findsEntry_learn, hno]
      rw [List.find?_append, List.find?_append, List.find?_cons_of_neg (by simp [hno']),
        List.find?_cons_of_neg (by simp [hno])]

/-- **A learned password is used** exactly when the entry it was put at is the one that is found. -/
theorem cacheNickservPass_learned_iff (n : IrcNetwork) (pass : Str) (p : Proxy) :
    (∃ p', cacheNickservPass true n (some pass) p = .ok p' ∧
      Learned n pass p.nickservNicks p'.nickservNicks) ↔
    FoundWhereLearned n pass p.nickservNicks := by
  obtain ⟨p', hrun, hcases⟩ := cacheNickservPass_cases n pass p
  have hothers : ∀ (n' : IrcNetwork) (nick : Str),
      ¬(strcasecmpEq n'.name n.name ∧
        n'.info.casemapping.fold nick = n'.info.casemapping.fold n.nick) →
      nickservFindNick n' (some nick) p'.nickservNicks =
        nickservFindNick n' (some nick) p.nickservNicks := by
    intro n' nick hother
    rw [nickservFindNick_eq, nickservFindNick_eq]
    rcases hcases with ⟨-, hlist⟩ | ⟨xs, e, ys, hsplit, -, he, hlist⟩
    · have hself : learnsEntry n pass (.on n.name n.nick (some pass)) = true :=
        decide_eq_true ⟨strcasecmpEq_iff.mpr rfl, strcasecmpEq_iff.mpr rfl⟩
      rw [hlist, List.find?_cons_of_neg (by simp [findsEntry_other hself hother])]
    · rw [hlist, hsplit, find_learn_other he hother]
  have hiff : (∃ p', cacheNickservPass true n (some pass) p = .ok p' ∧
      Learned n pass p.nickservNicks p'.nickservNicks) ↔
      (p'.nickservNicks.find? (findsEntry n n.nick)).bind KeyfileEntry.pass = some pass := by
    constructor
    · rintro ⟨q, hq, hlearned⟩
      cases hrun.symm.trans hq
      have hfound := hlearned.found
      rw [nickservFindNick_eq] at hfound
      exact Except.ok.inj hfound
    · intro hfound
      exact ⟨p', hrun, by rw [nickservFindNick_eq, hfound], hothers⟩
  rw [hiff]
  rcases hcases with ⟨hno, hlist⟩ | ⟨xs, e, ys, hsplit, hno, he, hlist⟩
  · have hself : findsEntry n n.nick (.on n.name n.nick (some pass)) = true :=
      decide_eq_true ⟨rfl, strcasecmpEq_iff.mpr rfl⟩
    rw [hlist, List.find?_cons_of_pos hself]
    exact ⟨fun _ => .inl hno, fun _ => rfl⟩
  · have hsome : ¬∀ x ∈ p.nickservNicks, learnsEntry n pass x = false := fun hall => by
      have hfalse := hall e (hsplit ▸ List.mem_append_right _ List.mem_cons_self)
      rw [he] at hfalse
      cases hfalse
    rw [FoundWhereLearned, or_iff_right hsome, hlist, hsplit]
    have hsame : xs.find? (fun e => findsEntry n n.nick e || learnsEntry n pass e) =
        xs.find? (findsEntry n n.nick) :=
      List.find?_congr fun x hx => by rw [hno x hx, Bool.or_false]
    cases hx : xs.find? (findsEntry n n.nick) with
    | some f =>
        -- an entry in front is found, and the password is not put there
        have hf := List.mem_of_find?_eq_some hx
        have hnot : ¬∃ e', (xs ++ e :: ys).find? (fun e => findsEntry n n.nick e || learnsEntry n pass e) =
            some e' ∧ findsEntry n n.nick e' = true ∧ learnsEntry n pass e' = true := by
          rintro ⟨e', hfind, -, hlearn⟩
          rw [List.find?_append, hsame, hx] at hfind
          cases hfind
          rw [hno f hf] at hlearn
          cases hlearn
        rw [or_iff_right hnot, List.find?_append, List.find?_append, hx]
        rfl
    | none =>
        rw [List.find?_append, List.find?_append, List.find?_append, hx]
        have hfirst : (e :: ys).find? (fun e => findsEntry n n.nick e || learnsEntry n pass e) = some e :=
          List.find?_cons_of_pos (by rw [he, Bool.or_true])
        rw [hsame, hx, hfirst]
        cases hq : findsEntry n n.nick e with
        | true =>
            have hq' : findsEntry n n.nick (e.learn pass) = true := by rw [findsEntry_learn, hq]
            rw [List.find?_cons_of_pos hq']
            exact ⟨fun _ => .inl ⟨e, rfl, hq, he⟩, fun _ => pass_learn he⟩
        | false =>
            have hq' : ¬findsEntry n n.nick (e.learn pass) = true := by
              rw [findsEntry_learn, hq]
              exact Bool.false_ne_true
            rw [List.find?_cons_of_neg hq', List.find?_cons_of_neg (by simp [hq])]
            refine ⟨.inr, fun h => h.resolve_left ?_⟩
            rintro ⟨e', he', hfinds, -⟩
            cases he'
            rw [hq] at hfinds
            cases hfinds

end

/-- An old password for every network comes before the entry that is learned at. -/
theorem learned_password_not_found : ¬ ∀ (n : IrcNetwork) (pass : Str) (p : Proxy),
    ∃ p', cacheNickservPass true n (some pass) p = .ok p' ∧
      Learned n pass p.nickservNicks p'.nickservNicks := by
  intro h
  have hfound := (cacheNickservPass_learned_iff (namedNetwork "net" "me") (str "new")
    ⟨[.everywhere (str "me") (str "old"), .on (str "net") (str "me") (some (str "older"))], none, [],
      false⟩).mp (h _ _ _)
  revert hfound
  unfold FoundWhereLearned
  decide

end Ctrlproxy
