import Mathlib.Data.List.Infix
import Ctrlproxy.Base.Announce
import Ctrlproxy.Redirect.Stack
import Ctrlproxy.State.Objects

/-!
# Client — the hostmask a client sees of itself

`irc_line_replace_hostmask` of `src/client.c`: a line of the server is handed to a client with the
hostmask the client knows itself by.  The origin is replaced when the line comes from the user, and
the user and the host in the replies that tell them: 302, 311, 314 and 352.

`rewritten` is the line that is meant.  `replaceHostmask_iff` says when it is the one that is made.  The
origin always is.  A 302 is looked through when the old host is found in it, and its list is stripped in
place; the `*` of an operator hides the nick in front of it.  A 352 is read at its seventh argument when
it has six, and a 311 or 314 is given a fifth argument when it has four.
-/

namespace Ctrlproxy
open Outcome Redirect

/-- A copy with the number of arguments it claims to have. -/
structure DupLine where
  line : IrcLine
  argc : ℕ

/-- `linedup`. -/
def linedup (l : IrcLine) : DupLine := ⟨l, l.argc⟩

/-- An argument is replaced, or put behind the last one; `NULL` ends the vector. -/
def DupLine.setArg (d : DupLine) (i : ℕ) (v : Option Str) : DupLine :=
  { d with line := { d.line with args := match v with
      | none => d.line.args.take i
      | some v => d.line.args.take i ++ v :: d.line.args.drop (i + 1) } }

/-- `line_from_nick`. -/
def lineFromNick (info : Option NetworkInfo) (l : IrcLine) (nick : Option Str) : Except Fault Bool := do
  let lineNick ← lineGetNick l
  ircEq info nick (some lineNick)

/-- One user of a 302.  A user that ends behind its `=` has no flag: the terminator is printed. -/
def replaceUser (info : Option NetworkInfo) (old new : NetworkNick) (user : Str) : Except Fault Str :=
  match gStrsplitN user (chr '=') 2 with
  | name :: rest :: _ => do
      if ← ircEq info (some name) old.nick then
        match rest with
        | [] => pure (name ++ [chr '='])
        | flag :: _ => pure (name ++ chr '=' :: flag ::
            (printS new.username ++ chr '@' :: printS new.hostname))
      else pure user
  | _ => .ok user

/-- `irc_line_replace_hostmask`: the line, in which a list is stripped in place, and the line to send
instead of it. -/
def ircLineReplaceHostmask (l : IrcLine) (info : Option NetworkInfo) (old new : NetworkNick) :
    Except Fault (IrcLine × Option DupLine) := do
  if ← ircEq info old.hostmask new.hostmask then pure (l, none)
  else if ← (if l.origin.isSome then lineFromNick info l old.nick else pure false) then
    pure (l, some { linedup l with line := { l with origin := new.hostmask } })
  else if ircLineRespcode l = 302 then do
    let list ← l.argStr 2
    match old.hostname with
    | none => .error .null
    | some host =>
        if host <:+: list then do
          let l := { l with args := l.args.set 2 (gStrstrip list) }
          let users ← (gStrsplit (gStrstrip list) (chr ' ')).mapM (replaceUser info old new)
          pure (l, some ((linedup l).setArg 2 (some (gStrjoinv (chr ' ') users))))
        else pure (l, none)
  else if ircLineRespcode l = 352 then
    if 6 ≤ l.argc then do
      let nick ← l.arg 6
      if ← ircEq info nick old.nick then
        pure (l, some (((linedup l).setArg 4 new.hostname).setArg 3 new.username))
      else pure (l, none)
    else pure (l, none)
  else if ircLineRespcode l = 311 ∨ ircLineRespcode l = 314 then
    if 4 ≤ l.argc then do
      let nick ← l.arg 2
      if ← ircEq info nick old.nick then
        pure (l, some (((linedup l).setArg 4 new.hostname).setArg 3 new.username))
      else pure (l, none)
    else pure (l, none)
  else pure (l, none)

/-! ### The line that is meant -/

/-- What is known of a nick. -/
structure Identity where
  nick : Str
  username : Str
  hostname : Str
  hostmask : Str

/-- A nick of which all is known. -/
structure NetworkNick.Known (n : NetworkNick) (i : Identity) : Prop where
  nick : n.nick = some i.nick
  username : n.username = some i.username
  hostname : n.hostname = some i.hostname
  hostmask : n.hostmask = some i.hostmask

/-- `user@host`. -/
def Identity.userhost (i : Identity) : Str := i.username ++ chr '@' :: i.hostname

section
variable (info : Option NetworkInfo) (o n : Identity) (l : IrcLine)

/-- The same name, as the network compares them. -/
def SameName (a b : Str) : Prop := irccmpStr (casemapOf info) a b = 0

instance (a b : Str) : Decidable (SameName info a b) := inferInstanceAs (Decidable (_ = _))

/-- The line comes from a nick. -/
def FromNick : Prop := ∃ w ∈ l.origin, SameName info o.nick (w.takeWhile (· ≠ chr '!'))

instance : Decidable (FromNick info o l) :=
  match h : l.origin with
  | none => isFalse (by simp [FromNick, h])
  | some w => decidable_of_iff (SameName info o.nick (w.takeWhile (· ≠ chr '!'))) (by
      simp [FromNick, h])

/-- An argument of the line is the nick. -/
def ArgNames (i : ℕ) : Prop := ∃ w ∈ l.args[i]?, SameName info w o.nick

instance (i : ℕ) : Decidable (ArgNames info o l i) :=
  match h : l.args[i]? with
  | none => isFalse (by simp [ArgNames, h])
  | some w => decidable_of_iff (SameName info w o.nick) (by simp [ArgNames, h])

/-- The nick, the flag and the `user@host` of a user of a 302. -/
def userFields (user : Str) : Option (Str × Byte × Str) :=
  match gStrsplitN user (chr '=') 2 with
  | [name, flag :: userhost] => some (name, flag, userhost)
  | _ => none

/-- A name without the stars of an operator. -/
def starless (name : Str) : Str := (name.reverse.dropWhile (· = chr '*')).reverse

/-- The user of a 302 that is meant. -/
def rewriteUser (user : Str) : Str :=
  match userFields user with
  | none => user
  | some (name, flag, _) =>
      if SameName info name o.nick ∨ SameName info (starless name) o.nick then
        name ++ chr '=' :: flag :: n.userhost
      else user

/-- The line that is meant. -/
def rewritten : IrcLine :=
  if FromNick info o l then { l with origin := some n.hostmask }
  else if ircLineRespcode l = 302 then
    { l with args := l.args.modify 2 fun list =>
        joinWith (chr ' ') ((pieces (chr ' ') list).map (rewriteUser info o n)) }
  else if ircLineRespcode l = 352 ∧ ArgNames info o l 6 ∨
      (ircLineRespcode l = 311 ∨ ircLineRespcode l = 314) ∧ ArgNames info o l 2 then
    { l with args := (l.args.set 3 n.username).set 4 n.hostname }
  else l

/-- The line tells the user and the host of the nick, or comes from it. -/
def TellsOf : Prop :=
  FromNick info o l ∨
  ircLineRespcode l = 302 ∧ (∃ list ∈ l.args[2]?, ∃ user ∈ pieces (chr ' ') list,
    ∃ name flag userhost, userFields user = some (name, flag, userhost) ∧ chr '@' ∈ userhost ∧
      (SameName info name o.nick ∨ SameName info (starless name) o.nick)) ∨
  ircLineRespcode l = 352 ∧ ArgNames info o l 6 ∨
  (ircLineRespcode l = 311 ∨ ircLineRespcode l = 314) ∧ 5 ≤ l.argc ∧ ArgNames info o l 2

/-- The line is left as it is; what is made is well formed and the line that is meant; and it is made
when the line tells of the nick. -/
def Replaced (r : Except Fault (IrcLine × Option DupLine)) : Prop :=
  ∃ d, r = .ok (l, d) ∧
    (∀ x ∈ d, x.argc = x.line.args.length ∧ x.line = rewritten info o n l) ∧
    (TellsOf info o l → d ≠ none)

/-- When the right line is made. -/
structure Replaceable : Prop where
  /-- The hostmasks differ, or the line has nothing to replace. -/
  differ : SameName info o.hostmask n.hostmask → ¬TellsOf info o l
  /-- A 302 has a list. -/
  list : ¬SameName info o.hostmask n.hostmask → ¬FromNick info o l → ircLineRespcode l = 302 →
    l.args[2]? ≠ none
  /-- A list with the host in it has no blanks around it, and no star between the nick and an old
  `user@host`. -/
  found : ¬SameName info o.hostmask n.hostmask → ¬FromNick info o l → ircLineRespcode l = 302 →
    ∀ list ∈ l.args[2]?, o.hostname <:+: list → gStrstrip list = list ∧
      ∀ user ∈ pieces (chr ' ') list, ∀ name flag userhost,
        userFields user = some (name, flag, userhost) → SameName info (starless name) o.nick →
          SameName info name o.nick ∨ userhost = n.userhost
  /-- A list without the host in it does not tell of the nick. -/
  missed : ¬SameName info o.hostmask n.hostmask → ¬FromNick info o l → ircLineRespcode l = 302 →
    ∀ list ∈ l.args[2]?, ¬o.hostname <:+: list → ¬TellsOf info o l
  /-- A 352 has not just lost its nick. -/
  who : ¬SameName info o.hostmask n.hostmask → ¬FromNick info o l → ircLineRespcode l = 352 →
    l.argc ≠ 6
  /-- A 311 or 314 has not just lost its host. -/
  whois : ¬SameName info o.hostmask n.hostmask → ¬FromNick info o l →
    ircLineRespcode l = 311 ∨ ircLineRespcode l = 314 → l.argc = 4 → ¬ArgNames info o l 2

end

section
variable {info : Option NetworkInfo} {o n : Identity} {l : IrcLine} {old new : NetworkNick}
  {f g : Str → Str} {c : Byte} {es : List Str}

/-! ### Lists -/

theorem joinWith_map_cons (f : Str → Str) (s : Str) (h : es ≠ []) :
    joinWith c ((s :: es).map f) = f s ++ c :: joinWith c (es.map f) := by
  rw [List.map_cons, joinWith_cons fun e => h (List.map_eq_nil_iff.mp e)]

/-- What is put in for words without separators has as many of them, if the list has. -/
theorem count_joinWith_map (h : ∀ e ∈ es, f e = g e ∨ c ∉ g e) :
    ((joinWith c (es.map g)).count c ≤ (joinWith c (es.map f)).count c) ∧
      ((joinWith c (es.map f)).count c = (joinWith c (es.map g)).count c →
        ∀ e ∈ es, f e = g e ∨ c ∉ f e ∧ c ∉ g e) := by
  induction es with
  | nil => exact ⟨le_rfl, fun _ => nofun⟩
  | cons e es ih =>
      obtain ⟨he, hes⟩ := List.forall_mem_cons.mp h
      obtain ⟨hle, hall⟩ := ih hes
      have hword : (g e).count c ≤ (f e).count c ∧
          ((f e).count c = (g e).count c → f e = g e ∨ c ∉ f e ∧ c ∉ g e) := by
        rcases he with he | he
        · exact ⟨by rw [he], fun _ => .inl he⟩
        · rw [List.count_eq_zero_of_not_mem he]
          exact ⟨Nat.zero_le _, fun hzero => .inr ⟨List.count_eq_zero.mp hzero, he⟩⟩
      by_cases hne : es = []
      · subst hne
        exact ⟨hword.1, fun heq => List.forall_mem_singleton.mpr (hword.2 heq)⟩
      · rw [joinWith_map_cons f e hne, joinWith_map_cons g e hne]
        simp only [List.count_append, List.count_cons_self]
        obtain ⟨hcount, hsame⟩ := hword
        exact ⟨by omega, fun heq => List.forall_mem_cons.mpr ⟨hsame (by omega), hall (by omega)⟩⟩

/-- Words of a list are read off it, apart from words that are the same anyway. -/
theorem joinWith_map_inj (h : ∀ e ∈ es, f e = g e ∨ c ∉ g e)
    (heq : joinWith c (es.map f) = joinWith c (es.map g)) : ∀ e ∈ es, f e = g e := by
  have hboth := (count_joinWith_map h).2 (by rw [heq])
  clear h
  induction es with
  | nil => nofun
  | cons e es ih =>
      obtain ⟨he, hes⟩ := List.forall_mem_cons.mp hboth
      by_cases hne : es = []
      · subst hne
        exact List.forall_mem_singleton.mpr heq
      · rw [joinWith_map_cons f e hne, joinWith_map_cons g e hne] at heq
        have hword : f e = g e := by
          rcases he with he | ⟨hf, hg⟩
          · exact he
          · have upTo : ∀ w rest, c ∉ w → (w ++ c :: rest).takeWhile (· ≠ c) = w := by
              intro w rest hw
              have hword : ∀ b ∈ w, decide (b ≠ c) = true :=
                fun b hb => decide_eq_true fun e => hw (e ▸ hb)
              rw [List.takeWhile_append_of_pos hword]
              simp
            rw [← upTo _ _ hf, heq, upTo _ _ hg]
        rw [hword] at heq
        have hrest := List.cons.inj (List.append_cancel_left heq)
        exact List.forall_mem_cons.mpr ⟨hword, ih hrest.2 hes⟩

/-! ### What is made -/

theorem ircEq_known (a b : Str) : ircEq info (some a) (some b) = .ok (decide (SameName info a b)) := rfl

theorem lineFromNick_known : (if l.origin.isSome then lineFromNick info l (some o.nick)
    else (pure false : Except Fault Bool)) = .ok (decide (FromNick info o l)) := by
  cases ho : l.origin with
  | none => simp [FromNick, ho]
  | some w =>
      rw [Option.isSome_some, if_pos rfl, lineFromNick, lineGetNick, ho]
      exact congrArg Except.ok (decide_eq_decide.mpr (by simp [FromNick, SameName, ho]))

/-- The user of a 302 that is made: a name with a star is another one. -/
def plainUser (info : Option NetworkInfo) (o n : Identity) (user : Str) : Str :=
  match userFields user with
  | none => user
  | some (name, flag, _) =>
      if SameName info name o.nick then name ++ chr '=' :: flag :: n.userhost else user

/-- The fields of a user are what it is made of. -/
theorem userFields_eq {user name userhost : Str} {flag : Byte}
    (h : userFields user = some (name, flag, userhost)) :
    user = name ++ chr '=' :: flag :: userhost := by
  unfold userFields at h
  split at h
  · next hparts =>
    cases h
    have hne : user ≠ [] := by
      rintro rfl
      simp [gStrsplitN] at hparts
    rcases gStrsplitN_two (c := chr '=') hne with ⟨hone, -⟩ | ⟨p, s, htwo, rfl, -⟩
    · rw [hone] at hparts
      simp at hparts
    · rw [htwo] at hparts
      cases hparts
      rfl
  · cases h

theorem replaceUser_known (ho : old.Known o) (hn : new.Known n) (user : Str) :
    replaceUser info old new user = .ok (plainUser info o n user) := by
  rw [replaceUser, plainUser, userFields, ho.nick, hn.username, hn.hostname]
  by_cases hne : user = []
  · subst hne
    rfl
  · rcases gStrsplitN_two (c := chr '=') hne with ⟨hone, -⟩ | ⟨p, s, htwo, rfl, -⟩
    · rw [hone]
    · rw [htwo]
      dsimp only
      rw [ircEq_known, ok_bind]
      cases s with
      | nil => by_cases hname : SameName info p o.nick <;> simp [hname]
      | cons flag s =>
          by_cases hname : SameName info p o.nick
          · simp [hname, Identity.userhost, printS]
          · simp [hname]

theorem mapM_replaceUser (ho : old.Known o) (hn : new.Known n) (users : List Str) :
    users.mapM (replaceUser info old new) = .ok (users.map (plainUser info o n)) := by
  induction users with
  | nil => rfl
  | cons user users ih =>
      rw [List.mapM_cons, replaceUser_known ho hn, ok_bind, ih, ok_bind]
      rfl

/-- The users that are made are the users that are meant, or have a star and no blank. -/
theorem rewriteUser_cases {list : Str} : ∀ user ∈ pieces (chr ' ') list,
    rewriteUser info o n user = plainUser info o n user ∨ chr ' ' ∉ plainUser info o n user := by
  intro user huser
  have hblank : chr ' ' ∉ user := not_mem_of_mem_pieces huser
  unfold rewriteUser plainUser
  cases userFields user with
  | none => exact .inl rfl
  | some fields =>
      obtain ⟨name, flag, userhost⟩ := fields
      by_cases hname : SameName info name o.nick
      · simp [hname]
      · simp only [hname, if_false]
        exact .inr hblank

/-- The users that are made are the users that are meant, where no star stands in the way. -/
theorem rewriteUser_eq_iff {user : Str} : rewriteUser info o n user = plainUser info o n user ↔
    ∀ name flag userhost, userFields user = some (name, flag, userhost) →
      SameName info (starless name) o.nick → SameName info name o.nick ∨ userhost = n.userhost := by
  unfold rewriteUser plainUser
  cases hfields : userFields user with
  | none => simp
  | some fields =>
      obtain ⟨name, flag, userhost⟩ := fields
      have huser := userFields_eq hfields
      by_cases hname : SameName info name o.nick
      · refine iff_of_true (by simp [hname]) fun name' flag' userhost' h _ => .inl ?_
        cases h
        exact hname
      · by_cases hstar : SameName info (starless name) o.nick
        · simp only [hname, hstar, or_true, if_true, if_false]
          constructor
          · intro heq name' flag' userhost' h _
            cases h
            rw [huser] at heq
            have htail := (List.cons.inj (List.append_cancel_left heq)).2
            exact .inr (List.cons.inj htail).2.symm
          · intro h
            rw [huser, (h name flag userhost rfl hstar).resolve_left hname]
        · refine iff_of_true (by simp [hname, hstar]) fun name' flag' userhost' h hstar' => ?_
          cases h
          exact absurd hstar' hstar

/-- An argument that is there is replaced. -/
theorem DupLine.setArg_of_lt {d : DupLine} {i : ℕ} (h : i < d.line.args.length) (v : Str) :
    d.setArg i (some v) = { d with line := { d.line with args := d.line.args.set i v } } := by
  rw [List.set_eq_take_append_cons_drop, if_pos h]
  rfl

/-- The list of a 302 that is meant. -/
theorem rewritten_list {list : Str} (hfrom : ¬FromNick info o l) (h302 : ircLineRespcode l = 302)
    (hargs : l.args[2]? = some list) : rewritten info o n l =
      { l with args := l.args.set 2 (joinWith (chr ' ') ((pieces (chr ' ') list).map
        (rewriteUser info o n))) } := by
  obtain ⟨hlt, hlist⟩ := List.getElem?_eq_some_iff.mp hargs
  rw [rewritten, if_neg hfrom, if_pos h302, List.modify_eq_take_cons_drop hlt, hlist,
    List.set_eq_take_append_cons_drop, if_pos hlt]

/-- The list of a 302 that is made. -/
theorem join_gStrsplit (list : Str) :
    gStrjoinv (chr ' ') ((gStrsplit list (chr ' ')).map (plainUser info o n)) =
      joinWith (chr ' ') ((pieces (chr ' ') list).map (plainUser info o n)) := by
  rw [gStrsplit]
  split
  · next hlist =>
    subst hlist
    rfl
  · rfl

theorem set_inj {args : List Str} {i : ℕ} {v v' : Str} (h : i < args.length)
    (heq : args.set i v = args.set i v') : v = v' := by
  have hi := congrArg (·[i]?) heq
  simpa [List.getElem?_set_self h] using hi

/-- The user and the host of a 311, 314 or 352 are made and meant. -/
theorem setArg_userhost (h : 4 < l.argc) :
    ((linedup l).setArg 4 (some n.hostname)).setArg 3 (some n.username) =
      ⟨{ l with args := (l.args.set 3 n.username).set 4 n.hostname }, l.argc⟩ := by
  have hlt : 3 < (l.args.set 4 n.hostname).length := by
    rw [List.length_set]
    exact Nat.lt_of_succ_lt h
  rw [DupLine.setArg_of_lt (d := linedup l) h, DupLine.setArg_of_lt hlt]
  simp only [linedup, List.set_comm _ _ (show (4 : ℕ) ≠ 3 by decide)]

/-! ### When it is made -/

/-- A 302 has a list. -/
theorem Replaceable.of_list (hsame : ¬SameName info o.hostmask n.hostmask)
    (h302 : ircLineRespcode l = 302) {list : Str} (hargs : l.args[2]? = some list)
    (hfound : o.hostname <:+: list → gStrstrip list = list ∧
      ∀ user ∈ pieces (chr ' ') list, rewriteUser info o n user = plainUser info o n user)
    (hmissed : ¬o.hostname <:+: list → ¬TellsOf info o l) : Replaceable info o n l where
  differ h := absurd h hsame
  list _ _ _ := by simp [hargs]
  found _ _ _ list' h hin := by
    cases hargs.symm.trans h
    exact ⟨(hfound hin).1, fun user hu => rewriteUser_eq_iff.mp ((hfound hin).2 user hu)⟩
  missed _ _ _ list' h hno := by
    cases hargs.symm.trans h
    exact hmissed hno
  who _ _ h := absurd (h302.symm.trans h) (by decide)
  whois _ _ h := by
    rw [h302] at h
    exact absurd h (by decide)

/-- A 352 has not just lost its nick. -/
theorem Replaceable.of_who (hsame : ¬SameName info o.hostmask n.hostmask)
    (h352 : ircLineRespcode l = 352) (hargc : l.argc ≠ 6) : Replaceable info o n l where
  differ h := absurd h hsame
  list _ _ h := absurd (h352.symm.trans h) (by decide)
  found _ _ h := absurd (h352.symm.trans h) (by decide)
  missed _ _ h := absurd (h352.symm.trans h) (by decide)
  who _ _ _ := hargc
  whois _ _ h := by
    rw [h352] at h
    exact absurd h (by decide)

/-- A line that is neither a 302 nor a 352 has not just lost its host. -/
theorem Replaceable.of_whois (hsame : ¬SameName info o.hostmask n.hostmask)
    (h302 : ircLineRespcode l ≠ 302) (h352 : ircLineRespcode l ≠ 352)
    (hargc : ircLineRespcode l = 311 ∨ ircLineRespcode l = 314 → l.argc = 4 → ¬ArgNames info o l 2) :
    Replaceable info o n l where
  differ h := absurd h hsame
  list _ _ h := absurd h h302
  found _ _ h := absurd h h302
  missed _ _ h := absurd h h302
  who _ _ h := absurd h h352
  whois _ _ := hargc

/-- The branch of a 302. -/
theorem replaceList_iff (ho : old.Known o) (hn : new.Known n)
    (hsame : ¬SameName info o.hostmask n.hostmask) (hfrom : ¬FromNick info o l)
    (h302 : ircLineRespcode l = 302) : Replaced info o n l (do
      let list ← l.argStr 2
      match old.hostname with
      | none => .error .null
      | some host =>
          if host <:+: list then do
            let l := { l with args := l.args.set 2 (gStrstrip list) }
            let users ← (gStrsplit (gStrstrip list) (chr ' ')).mapM (replaceUser info old new)
            pure (l, some ((linedup l).setArg 2 (some (gStrjoinv (chr ' ') users))))
          else pure (l, none)) ↔ Replaceable info o n l := by
  cases hargs : l.args[2]? with
  | none =>
      refine iff_of_false ?_ fun h => h.list hsame hfrom h302 hargs
      rintro ⟨d, hd, -⟩
      rw [IrcLine.argStr, hargs] at hd
      split at hd <;> cases hd
  | some list =>
      have hmeant := rewritten_list (n := n) hfrom h302 hargs
      obtain ⟨hlt, hlist⟩ := List.getElem?_eq_some_iff.mp hargs
      rw [IrcLine.argStr_eq hargs, ok_bind, ho.hostname]
      dsimp only
      by_cases hhost : o.hostname <:+: list
      · rw [if_pos hhost, mapM_replaceUser ho hn, ok_bind]
        constructor
        · rintro ⟨d, hd, hmade, -⟩
          obtain ⟨hl, hd⟩ := Prod.mk.inj (Except.ok.inj hd)
          have hstrip : gStrstrip list = list := by
            have h2 := congrArg (fun l => l.args[2]?) hl
            simpa [List.getElem?_set_self hlt, hargs] using h2
          rw [hl, hstrip, join_gStrsplit, DupLine.setArg_of_lt (d := linedup l) hlt] at hd
          subst hd
          have hjoin := set_inj hlt (congrArg IrcLine.args ((hmade _ rfl).2.trans hmeant))
          exact .of_list hsame h302 hargs (fun _ => ⟨hstrip, joinWith_map_inj rewriteUser_cases hjoin.symm⟩)
            fun hno => absurd hhost hno
        · intro h
          obtain ⟨hstrip, husers⟩ := h.found hsame hfrom h302 list hargs hhost
          have hsetself : l.args.set 2 list = l.args := by
            rw [← hlist, List.set_getElem_self]
          rw [hstrip, hsetself, join_gStrsplit, DupLine.setArg_of_lt (d := linedup l) hlt]
          refine ⟨_, rfl, ?_, fun _ => Option.some_ne_none _⟩
          rintro x hx
          cases hx
          refine ⟨(List.length_set).symm, ?_⟩
          have hmap := List.map_congr_left fun user hu => rewriteUser_eq_iff.mpr (husers user hu)
          rw [hmeant, hmap]
          rfl
      · rw [if_neg hhost]
        constructor
        · rintro ⟨d, hd, -, htells⟩
          cases hd
          exact .of_list hsame h302 hargs (fun hin => absurd hin hhost) fun _ htell => htells htell rfl
        · intro h
          exact ⟨none, rfl, fun _ hno => absurd hno (Option.some_ne_none _).symm, fun htell =>
            absurd htell (h.missed hsame hfrom h302 list hargs hhost)⟩

/-- The user and the host are made and meant, where there is room for both. -/
theorem replaced_userhost (hn : new.Known n) (hargc : 4 < l.argc) (hfrom : ¬FromNick info o l)
    (h302 : ircLineRespcode l ≠ 302)
    (hnames : ircLineRespcode l = 352 ∧ ArgNames info o l 6 ∨
      (ircLineRespcode l = 311 ∨ ircLineRespcode l = 314) ∧ ArgNames info o l 2) :
    Replaced info o n l
      (pure (l, some (((linedup l).setArg 4 new.hostname).setArg 3 new.username))) := by
  rw [hn.hostname, hn.username, setArg_userhost hargc]
  refine ⟨_, rfl, ?_, fun _ => Option.some_ne_none _⟩
  rintro x hx
  cases hx
  refine ⟨by simp [IrcLine.argc], ?_⟩
  rw [rewritten, if_neg hfrom, if_neg h302, if_pos hnames]

/-- The branch of a 352. -/
theorem replaceWho_iff (ho : old.Known o) (hn : new.Known n)
    (hsame : ¬SameName info o.hostmask n.hostmask) (hfrom : ¬FromNick info o l)
    (h352 : ircLineRespcode l = 352) : Replaced info o n l (if 6 ≤ l.argc then do
        let nick ← l.arg 6
        if ← ircEq info nick old.nick then
          pure (l, some (((linedup l).setArg 4 new.hostname).setArg 3 new.username))
        else pure (l, none)
      else pure (l, none)) ↔ Replaceable info o n l := by
  have h302 : ircLineRespcode l ≠ 302 := fun h => absurd (h352.symm.trans h) (by decide)
  have hnames : TellsOf info o l ↔ ArgNames info o l 6 := by
    simp [TellsOf, hfrom, h352]
  by_cases hargc : 6 ≤ l.argc
  · rw [if_pos hargc, IrcLine.arg, if_pos hargc, ok_bind]
    cases hargs : l.args[6]? with
    | none =>
        -- the seventh argument is the `NULL` behind the sixth
        have hsix : l.argc = 6 := Nat.le_antisymm (List.getElem?_eq_none_iff.mp hargs) hargc
        refine iff_of_false ?_ fun h => h.who hsame hfrom h352 hsix
        rintro ⟨d, hd, -⟩
        rw [ho.nick] at hd
        cases hd
    | some nick =>
        have hlt : 6 < l.argc := (List.getElem?_eq_some_iff.mp hargs).1
        have harg : ArgNames info o l 6 ↔ SameName info nick o.nick := by
          simp [ArgNames, hargs]
        refine iff_of_true ?_ (.of_who hsame h352 (by omega))
        rw [ho.nick, ircEq_known, ok_bind]
        by_cases hnick : SameName info nick o.nick
        · rw [if_pos (by simpa using hnick)]
          exact replaced_userhost hn (by omega) hfrom h302 (.inl ⟨h352, harg.mpr hnick⟩)
        · rw [if_neg (by simpa using hnick)]
          exact ⟨none, rfl, fun _ hno => absurd hno (Option.some_ne_none _).symm,
            fun h => absurd (harg.mp (hnames.mp h)) hnick⟩
  · rw [if_neg hargc]
    refine iff_of_true ⟨none, rfl, fun _ hno => absurd hno (Option.some_ne_none _).symm,
      fun h => ?_⟩ (.of_who hsame h352 (by omega))
    obtain ⟨w, hw, -⟩ := hnames.mp h
    exact absurd (List.getElem?_eq_some_iff.mp hw).1 (by simp only [IrcLine.argc] at hargc; omega)

/-- The branch of a 311 or 314. -/
theorem replaceWhois_iff (ho : old.Known o) (hn : new.Known n)
    (hsame : ¬SameName info o.hostmask n.hostmask) (hfrom : ¬FromNick info o l)
    (h302 : ircLineRespcode l ≠ 302) (h352 : ircLineRespcode l ≠ 352)
    (hwhois : ircLineRespcode l = 311 ∨ ircLineRespcode l = 314) :
    Replaced info o n l (if 4 ≤ l.argc then do
        let nick ← l.arg 2
        if ← ircEq info nick old.nick then
          pure (l, some (((linedup l).setArg 4 new.hostname).setArg 3 new.username))
        else pure (l, none)
      else pure (l, none)) ↔ Replaceable info o n l := by
  have hnames : TellsOf info o l ↔ 5 ≤ l.argc ∧ ArgNames info o l 2 := by
    simp [TellsOf, hfrom, h302, h352, hwhois]
  by_cases hargc : 4 ≤ l.argc
  · obtain ⟨nick, hargs⟩ : ∃ nick, l.args[2]? = some nick :=
      ⟨_, List.getElem?_eq_getElem (Nat.lt_of_lt_of_le (by decide) hargc)⟩
    have harg : ArgNames info o l 2 ↔ SameName info nick o.nick := by
      simp [ArgNames, hargs]
    rw [if_pos hargc, IrcLine.arg_eq hargs, ok_bind, ho.nick, ircEq_known, ok_bind]
    by_cases hnick : SameName info nick o.nick
    · rw [if_pos (by simpa using hnick)]
      by_cases hfour : l.argc = 4
      · -- the host is put behind the last argument
        refine iff_of_false ?_ fun h => h.whois hsame hfrom hwhois hfour (harg.mpr hnick)
        rintro ⟨d, hd, hmade, -⟩
        rw [hn.hostname, hn.username] at hd
        cases hd
        have hlength := (hmade _ rfl).1
        have hfour' : l.args.length = 4 := hfour
        simp [linedup, DupLine.setArg, IrcLine.argc, hfour'] at hlength
      · exact iff_of_true (replaced_userhost hn (by omega) hfrom h302 (.inr ⟨hwhois, harg.mpr hnick⟩))
          (.of_whois hsame h302 h352 fun _ h => absurd h hfour)
    · rw [if_neg (by simpa using hnick)]
      exact iff_of_true ⟨none, rfl, fun _ hno => absurd hno (Option.some_ne_none _).symm,
        fun h => absurd (harg.mp (hnames.mp h).2) hnick⟩
        (.of_whois hsame h302 h352 fun _ _ h => hnick (harg.mp h))
  · rw [if_neg hargc]
    exact iff_of_true ⟨none, rfl, fun _ hno => absurd hno (Option.some_ne_none _).symm,
      fun h => by have := (hnames.mp h).1; omega⟩
      (.of_whois hsame h302 h352 fun _ h => by omega)

/-- The right line is made exactly when nothing stands in the way of it. -/
theorem replaceHostmask_iff (ho : old.Known o) (hn : new.Known n) :
    Replaced info o n l (ircLineReplaceHostmask l info old new) ↔ Replaceable info o n l := by
  unfold ircLineReplaceHostmask
  rw [ho.hostmask, hn.hostmask, ircEq_known, ok_bind]
  by_cases hsame : SameName info o.hostmask n.hostmask
  · -- there is nothing to replace
    rw [if_pos (by simpa using hsame)]
    constructor
    · rintro ⟨d, hd, -, htells⟩
      cases hd
      exact ⟨fun _ h => htells h rfl, fun h => absurd hsame h, fun h => absurd hsame h,
        fun h => absurd hsame h, fun h => absurd hsame h, fun h => absurd hsame h⟩
    · intro h
      exact ⟨none, rfl, nofun, fun htells => absurd htells (h.differ hsame)⟩
  rw [if_neg (by simpa using hsame), ho.nick, lineFromNick_known, ok_bind]
  by_cases hfrom : FromNick info o l
  · -- the origin is replaced
    rw [if_pos (by simpa using hfrom)]
    refine iff_of_true ⟨_, rfl, ?_, fun _ => Option.some_ne_none _⟩
      ⟨fun h => absurd h hsame, fun _ h => absurd hfrom h, fun _ h => absurd hfrom h,
        fun _ h => absurd hfrom h, fun _ h => absurd hfrom h, fun _ h => absurd hfrom h⟩
    rintro x hx
    cases hx
    refine ⟨rfl, ?_⟩
    rw [rewritten, if_pos hfrom]
  rw [if_neg (by simpa using hfrom), ← ho.nick]
  by_cases h302 : ircLineRespcode l = 302
  · rw [if_pos h302]
    exact replaceList_iff ho hn hsame hfrom h302
  rw [if_neg h302]
  by_cases h352 : ircLineRespcode l = 352
  · rw [if_pos h352]
    exact replaceWho_iff ho hn hsame hfrom h352
  rw [if_neg h352]
  by_cases hwhois : ircLineRespcode l = 311 ∨ ircLineRespcode l = 314
  · rw [if_pos hwhois]
    exact replaceWhois_iff ho hn hsame hfrom h302 h352 hwhois
  · rw [if_neg hwhois]
    have hno : ¬TellsOf info o l := by
      rintro (h | ⟨h, -⟩ | ⟨h, -⟩ | ⟨h, -⟩)
      · exact hfrom h
      · exact h302 h
      · exact h352 h
      · exact hwhois h
    exact iff_of_true ⟨none, rfl, nofun, fun h => absurd h hno⟩
      (.of_whois hsame h302 h352 fun h => absurd h hwhois)

end

/-! ### A list and a short reply -/

/-- What the network knows of the user. -/
def networkIdentity : Identity := ⟨str "foo", str "foouser", str "foohost", str "foo!foouser@foohost"⟩

/-- What the client knows of itself. -/
def clientIdentity : Identity := ⟨str "foo", str "baruser", str "barhost", str "foo!baruser@barhost"⟩

/-- A nick of which an identity is known. -/
def Identity.toNick (i : Identity) : NetworkNick :=
  { NetworkNick.zero with
    nick := some i.nick
    username := some i.username
    hostname := some i.hostname
    hostmask := some i.hostmask }

theorem Identity.toNick_known (i : Identity) : i.toNick.Known i := ⟨rfl, rfl, rfl, rfl⟩

/-- The user and the host are told. -/
def whoisReply : IrcLine :=
  ⟨some (str "server"), [str "311", str "foo", str "foo", str "foouser", str "foohost",
    str "someinfo"], .colonUnknown⟩

theorem whoisReply_replaced : Replaced none networkIdentity clientIdentity whoisReply
    (ircLineReplaceHostmask whoisReply none networkIdentity.toNick clientIdentity.toNick) := by
  refine (replaceHostmask_iff networkIdentity.toNick_known clientIdentity.toNick_known).mpr ?_
  have hcode : ircLineRespcode whoisReply = 311 := by decide
  have hno : ircLineRespcode whoisReply ≠ 302 := by decide
  exact ⟨fun h => absurd h (by decide), fun _ _ h => absurd h hno, fun _ _ h => absurd h hno,
    fun _ _ h => absurd h hno, fun _ _ h => absurd (hcode.symm.trans h) (by decide),
    fun _ _ _ h => absurd h (by decide)⟩

/-- A list with a blank behind it. -/
def userhostReply : IrcLine :=
  ⟨some (str "server"), [str "302", str "foo", str "foo=+foouser@foohost "], .colonUnknown⟩

/-- The list is stripped where it stands, in the line of the server. -/
theorem userhostReply_stripped : ¬Replaced none networkIdentity clientIdentity userhostReply
    (ircLineReplaceHostmask userhostReply none networkIdentity.toNick clientIdentity.toNick) := by
  rintro ⟨d, hd, -⟩
  have hlist : (ircLineReplaceHostmask userhostReply none networkIdentity.toNick
      clientIdentity.toNick).map (fun r => r.1.args) = .ok userhostReply.args := by
    rw [hd]
    rfl
  revert hlist
  decide +kernel

end Ctrlproxy
