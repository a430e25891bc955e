import Ctrlproxy.Base.Announce
import Ctrlproxy.Linestack.Log
import Ctrlproxy.Redirect.Ctcp

/-!
# Redirect — answering CTCP requests

`src/ctcp.c`: a network without clients answers the CTCP requests that come to it.  An answer is one
line, which is no request and is not kept in the log, so that it makes nothing else
(`request_answered`); a request without a word in it ends the program.

`answer_routed` puts both ends together: the proxy that recorded a request finds the client for the
answer by the word the answer begins with, and that is the word of the request exactly if the request
spelled it as the table does.

Handlers may be registered by plugins (`cmds`); they reply, and do nothing else.
-/

namespace Ctrlproxy.Ctcp
open Outcome

/-! ### The handlers -/

/-- What the handlers ask the network and the system for. -/
structure Host where
  /-- `external_state->me.fullname` -/
  fullname : Option Str
  /-- `ctime` of the time it is -/
  ctime : Str
  /-- `ctrlproxy_version`, and the names of `uname` -/
  version : Str
  sysname : Str
  release : Str

/-- `struct ctcp_handler`, with the strings the handler gives to `ctcp_reply`. -/
structure CtcpHandler where
  name : Str
  fn : Option (Host → List Str → List (Option Str))

/-- `toarg`. -/
def toarg (ap : List (Option Str)) : Except Fault Str :=
  match vaList ap with
  | [] => .error .assertion
  | a :: list => .ok (ctcpMark :: (joinWith (chr ' ') (a :: list) ++ [ctcpMark]))

/-- `ctcp_reply`, as the line that is sent. -/
def ctcpReply (nick : Str) (ap : List (Option Str)) : Except Fault IrcLine := do
  let msg ← toarg ap
  pure (vircParseLine none [some (str "NOTICE"), some nick, some msg])

def handleTime (h : Host) (_ : List Str) : List (Option Str) :=
  [some (str "TIME"), some (h.ctime.takeWhile (· ≠ chr '\n'))]

def handleFinger (h : Host) (_ : List Str) : List (Option Str) := [some (str "FINGER"), h.fullname]

def handleSource (_ : Host) (_ : List Str) : List (Option Str) :=
  [some (str "SOURCE"), some (str "www.ctrlproxy.org:pub/ctrlproxy:ctrlproxy-latest.tar.gz")]

def handleVersion (h : Host) (_ : List Str) : List (Option Str) :=
  [some (str "VERSION"),
    some (str "ctrlproxy:" ++ h.version ++ str ":" ++ h.sysname ++ str " " ++ h.release)]

def handlePing (_ : Host) (args : List Str) : List (Option Str) := [some (str "PING"), args[1]?]

/-- The names of `builtins`. -/
def builtinNames : List Str :=
  [str "VERSION", str "CLIENTINFO", str "SOURCE", str "PING", str "FINGER", str "TIME", str "ACTION"]

def handleClientinfo (cmds : List CtcpHandler) (_ : Host) (_ : List Str) : List (Option Str) :=
  [some (str "CLIENTINFO"), some (joinWith (chr ' ') (builtinNames ++ cmds.map CtcpHandler.name))]

def builtins (cmds : List CtcpHandler) : List CtcpHandler :=
  [⟨str "VERSION", some handleVersion⟩, ⟨str "CLIENTINFO", some (handleClientinfo cmds)⟩,
    ⟨str "SOURCE", some handleSource⟩, ⟨str "PING", some handlePing⟩, ⟨str "FINGER", some handleFinger⟩,
    ⟨str "TIME", some handleTime⟩, ⟨str "ACTION", none⟩]

/-- The loops of `ctcp_process_request`, over the handlers of plugins first. -/
def findHandler (cmds : List CtcpHandler) (name : Str) : Option CtcpHandler :=
  (cmds.find? fun h => baseEq (some h.name) name).or
    ((builtins cmds).find? fun h => baseEq (some h.name) name)

/-- `ctcp_process_request` from the loops on: what it returns, and the lines that are sent. -/
def ctcpAnswer (h : Host) (cmds : List CtcpHandler) (nick : Str) (args : List Str) :
    Except Fault (Bool × List IrcLine) :=
  match args with
  | [] => .error .null
  | name :: _ =>
      match findHandler cmds name with
      | some ⟨_, none⟩ => pure (true, [])
      | some ⟨_, some fn⟩ => do
          let a ← ctcpReply nick (fn h args)
          pure (true, [a])
      | none => do
          let a ← ctcpReply nick [some (str "ERRMSG")]
          pure (false, [a])

/-- `ctcp_process_request`. -/
def ctcpProcessRequest (h : Host) (cmds : List CtcpHandler) (l : IrcLine) :
    Except Fault (Bool × List IrcLine) := do
  let nick ← lineGetNick l
  let message ← l.argStr 2
  match message with
  | [] => .error .overread
  | _ :: data =>
      if ctcpMark ∉ data then pure (false, [])
      else ctcpAnswer h cmds nick (gStrsplit (data.takeWhile (· ≠ ctcpMark)) (chr ' '))

/-! ### What an answer is -/

/-- Text that ends neither a message nor a line. -/
def Clean (w : Str) : Prop := ctcpMark ∉ w ∧ NoEol w

instance (w : Str) : Decidable (Clean w) := inferInstanceAs (Decidable (_ ∧ _))

structure Host.Clean (h : Host) : Prop where
  fullname : ∀ w ∈ h.fullname, Ctcp.Clean w
  ctime : Ctcp.Clean (h.ctime.takeWhile (· ≠ chr '\n'))
  version : Ctcp.Clean h.version
  sysname : Ctcp.Clean h.sysname
  release : Ctcp.Clean h.release

/-- A word that is taken for an action. -/
def Acts (w : Str) : Prop := (str "ACTION").map Byte.lower <+: w.map Byte.lower

instance (w : Str) : Decidable (Acts w) := inferInstanceAs (Decidable (_ <+: _))

/-- The strings of a reply: a word first, which is no action. -/
def Replies (ap : List (Option Str)) : Prop :=
  ∃ w ws, vaList ap = w :: ws ∧ w ≠ [] ∧ ¬ Acts w ∧ ∀ x ∈ w :: ws, Clean x

/-- A handler replies to clean words. -/
structure CtcpHandler.Clean (c : CtcpHandler) : Prop where
  name : Ctcp.Clean c.name
  fn : ∀ fn ∈ c.fn, ∀ (h : Host) (args : List Str), h.Clean → (∀ w ∈ args, Ctcp.Clean w) →
    Replies (fn h args)

/-- An answer for a nick: one line, that is kept by no log, asks for nothing and changes no state. -/
structure IsAnswer (nick : Str) (a : IrcLine) : Prop where
  args : ∃ body, a.args = [str "NOTICE", nick, ctcpMark :: (body ++ [ctcpMark])] ∧ body ≠ [] ∧
    ctcpMark ∉ body
  oneLine : ∀ x ∈ a.args, NoEol x
  unlogged : ∀ dir, ¬ Accepted a dir
  quiet : ∀ o, isRequest { a with origin := o } = false ∧ commandOf { a with origin := o } = none

/-! ### Replies -/

theorem clean_nil : Clean [] := ⟨by simp, fun _ hb => by cases hb⟩

theorem Clean.append {w v : Str} (hw : Clean w) (hv : Clean v) : Clean (w ++ v) :=
  ⟨fun h => (List.mem_append.mp h).elim hw.1 hv.1, hw.2.append hv.2⟩

theorem clean_joinWith {ws : List Str} (h : ∀ w ∈ ws, Clean w) : Clean (joinWith (chr ' ') ws) := by
  have hspace : Clean [chr ' '] := by decide
  induction ws with
  | nil => exact clean_nil
  | cons w ws ih =>
      have hw := h w List.mem_cons_self
      have hrest := ih fun x hx => h x (List.mem_cons_of_mem _ hx)
      cases ws with
      | nil => exact hw
      | cons v ws => exact hw.append (hspace.append hrest)

/-- A word that is no action is none with a space or a mark behind it. -/
theorem not_acts_behind {w rest : Str} {c : Byte} (h : ¬ Acts w)
    (hc : c.lower ∉ (str "ACTION").map Byte.lower) :
    ((w ++ c :: rest).take 6).map Byte.lower ≠ (str "ACTION").map Byte.lower := by
  intro heq
  rcases Nat.lt_or_ge w.length 6 with hlt | hge
  · refine hc ?_
    rw [← heq]
    refine List.mem_map_of_mem (List.mem_iff_getElem?.mpr ⟨w.length, ?_⟩)
    rw [List.getElem?_take_of_lt hlt, List.getElem?_append_right le_rfl, Nat.sub_self]
    rfl
  · rw [List.take_append_of_le_length hge] at heq
    refine h ?_
    rw [Acts, ← heq]
    exact (List.take_prefix _ _).map _

/-- What `toarg` makes of a reply. -/
theorem toarg_replies {ap : List (Option Str)} (h : Replies ap) : ∃ body,
    toarg ap = .ok (ctcpMark :: (body ++ [ctcpMark])) ∧ body ≠ [] ∧ Clean body ∧
      baseEqN (ctcpMark :: (body ++ [ctcpMark])) (ctcpMark :: str "ACTION") 7 = false := by
  obtain ⟨w, ws, hlist, hne, hacts, hclean⟩ := h
  refine ⟨joinWith (chr ' ') (w :: ws), ?_, ?_, clean_joinWith hclean, ?_⟩
  · rw [toarg, hlist]
  · cases ws with
    | nil => exact hne
    | cons v ws => exact List.append_ne_nil_of_left_ne_nil hne _
  · have hbehind : ∃ c rest, joinWith (chr ' ') (w :: ws) ++ [ctcpMark] = w ++ c :: rest ∧
        c.lower ∉ (str "ACTION").map Byte.lower := by
      cases ws with
      | nil => exact ⟨ctcpMark, [], rfl, by decide⟩
      | cons v ws => exact ⟨chr ' ', _, List.append_assoc _ _ _, by decide⟩
    obtain ⟨c, rest, htext, hc⟩ := hbehind
    have htake : ((w ++ c :: rest).take 6).map Byte.lower ≠ (str "ACTION").map Byte.lower :=
      not_acts_behind hacts hc
    rw [htext, baseEqN, List.take_succ_cons, List.take_succ_cons, List.map_cons, List.map_cons]
    refine beq_eq_false_iff_ne.mpr fun heq => htake ?_
    exact (List.cons.inj heq).2

/-- The line of a reply. -/
theorem ctcpReply_answer {nick : Str} {ap : List (Option Str)} (hnick : NoEol nick) (h : Replies ap) :
    ∃ a, ctcpReply nick ap = .ok a ∧ IsAnswer nick a := by
  obtain ⟨body, harg, hne, hclean, hno⟩ := toarg_replies h
  refine ⟨_, by rw [ctcpReply, harg, ok_bind]; rfl, ⟨body, rfl, hne, hclean.1⟩, ?_, ?_, ?_⟩
  · intro x hx
    have hmark : NoEol [ctcpMark] := by decide
    have hnotice : NoEol (str "NOTICE") := by decide
    simp only [vircParseLine, vaList, List.mem_cons, List.not_mem_nil, or_false] at hx
    rcases hx with rfl | rfl | rfl
    · exact hnotice
    · exact hnick
    · exact (hmark.append hclean.2).append hmark
  · rintro dir ⟨-, -, hctcp, -⟩
    exact hctcp ⟨.inr (by simp [vircParseLine, vaList, baseEq]), _, rfl, rfl, hno⟩
  · intro o
    refine ⟨rfl, commandOf_reply ?_⟩
    rfl

/-! ### The table -/

section
variable {h : Host} {cmds : List CtcpHandler} {l : IrcLine}

/-- Every handler of the table replies to clean words. -/
theorem builtins_clean (hcmds : ∀ c ∈ cmds, c.Clean) : ∀ c ∈ builtins cmds, c.Clean := by
  have words : ∀ w ∈ builtinNames, Clean w := by decide
  have replies : ∀ {w : Str} {rest : List (Option Str)}, w ∈ builtinNames.dropLast →
      (∀ x ∈ vaList rest, Clean x) → Replies (some w :: rest) := by
    intro w rest hw hrest
    have hacts : ∀ w ∈ builtinNames.dropLast, w ≠ [] ∧ ¬ Acts w ∧ Clean w := by decide
    obtain ⟨hne, hno, hclean⟩ := hacts w hw
    refine ⟨w, vaList rest, rfl, hne, hno, fun x hx => ?_⟩
    rcases List.mem_cons.mp hx with rfl | hx
    · exact hclean
    · exact hrest x hx
  have one : ∀ {v x : Str}, Clean v → x ∈ vaList [some v] → Clean x := by
    intro v x hv hx
    rwa [List.mem_singleton.mp hx]
  have option : ∀ {v : Option Str}, (∀ w ∈ v, Clean w) → ∀ x ∈ vaList [v], Clean x := by
    intro v hv x hx
    cases v with
    | none => cases hx
    | some v => exact one (hv v rfl) hx
  intro c hc
  simp only [builtins, List.mem_cons, List.not_mem_nil, or_false] at hc
  rcases hc with rfl | rfl | rfl | rfl | rfl | rfl | rfl
  · refine ⟨words _ (by simp [builtinNames]), fun fn hfn h args hh _ => ?_⟩
    cases hfn
    have hfixed : Clean (str "ctrlproxy:") ∧ Clean (str ":") ∧ Clean (str " ") := by decide
    exact replies (by simp [builtinNames]) fun x hx => one ((((hfixed.1.append hh.version).append
      hfixed.2.1).append hh.sysname |>.append hfixed.2.2).append hh.release) hx
  · refine ⟨words _ (by simp [builtinNames]), fun fn hfn h args _ _ => ?_⟩
    cases hfn
    refine replies (by simp [builtinNames]) fun x hx => one (clean_joinWith fun w hw => ?_) hx
    rcases List.mem_append.mp hw with hw | hw
    · exact words w hw
    · obtain ⟨c, hc, rfl⟩ := List.mem_map.mp hw
      exact (hcmds c hc).name
  · refine ⟨words _ (by simp [builtinNames]), fun fn hfn h args _ _ => ?_⟩
    cases hfn
    exact replies (by simp [builtinNames]) fun x hx => one (by decide) hx
  · refine ⟨words _ (by simp [builtinNames]), fun fn hfn h args _ hargs => ?_⟩
    cases hfn
    exact replies (by simp [builtinNames]) (option fun w hw => hargs w (List.mem_of_getElem? hw))
  · refine ⟨words _ (by simp [builtinNames]), fun fn hfn h args hh _ => ?_⟩
    cases hfn
    exact replies (by simp [builtinNames]) (option hh.fullname)
  · refine ⟨words _ (by simp [builtinNames]), fun fn hfn h args hh _ => ?_⟩
    cases hfn
    exact replies (by simp [builtinNames]) fun x hx => one hh.ctime hx
  · exact ⟨words _ (by simp [builtinNames]), fun fn hfn => by cases hfn⟩

theorem mem_of_mem_pieces {c : Byte} {w s : Str} (hs : s ∈ pieces c w) : ∀ b ∈ s, b ∈ w := by
  intro b hb
  induction w generalizing s with
  | nil =>
      rw [List.mem_singleton.mp hs] at hb
      cases hb
  | cons x w ih =>
      rw [pieces] at hs
      split at hs
      · rcases List.mem_cons.mp hs with rfl | hs
        · cases hb
        · exact List.mem_cons_of_mem _ (ih hs hb)
      · split at hs
        · rw [List.mem_singleton.mp hs, List.mem_singleton] at hb
          exact hb ▸ List.mem_cons_self
        · next p ps hpieces =>
          rw [hpieces] at ih
          rcases List.mem_cons.mp hs with rfl | hs
          · rcases List.mem_cons.mp hb with rfl | hb
            · exact List.mem_cons_self
            · exact List.mem_cons_of_mem _ (ih List.mem_cons_self hb)
          · exact List.mem_cons_of_mem _ (ih (List.mem_cons_of_mem _ hs) hb)

/-- The first word of a text. -/
theorem gStrsplit_head {c : Byte} {w : Str} (h : w ≠ []) :
    ∃ rest, gStrsplit w c = w.takeWhile (· ≠ c) :: rest := by
  rw [gStrsplit, if_neg h]
  have word : ∀ {p : Str}, c ∉ p → ∀ b ∈ p, decide (b ≠ c) = true := fun hp b hb =>
    decide_eq_true fun e : b = c => hp (e ▸ hb)
  by_cases hc : c ∈ w
  · obtain ⟨p, s, rfl, hp⟩ := List.eq_append_cons_of_mem hc
    refine ⟨pieces c s, ?_⟩
    rw [pieces_append hp, List.takeWhile_append_of_pos (word hp)]
    simp
  · refine ⟨[], ?_⟩
    rw [pieces_single hc, List.takeWhile_eq_self_iff.mpr (word hc)]

/-- The text of a request, behind its mark. -/
theorem request_text (hreq : isRequest l = true) : ∃ text,
    l.args[2]? = some (ctcpMark :: text) ∧
      (text.take 6).map Byte.lower ≠ (str "ACTION").map Byte.lower := by
  rw [isRequest, Bool.and_eq_true] at hreq
  obtain ⟨name, target, data, rest, hargs, -, hhead⟩ := isCtcp_args hreq.1
  obtain ⟨text, rfl⟩ : ∃ text, data = ctcpMark :: text := by
    cases data with
    | nil => cases hhead
    | cons b text => exact ⟨text, by rw [Option.some.inj hhead]⟩
  refine ⟨text, by rw [hargs]; rfl, fun heq => ?_⟩
  have hno := hreq.2
  rw [hargs] at hno
  simp [baseEqN, heq, str] at hno

/-- The handler that is found is one of the table, by its name. -/
theorem findHandler_some {name : Str} {c : CtcpHandler} (hc : findHandler cmds name = some c) :
    c ∈ cmds ++ builtins cmds ∧ baseEq (some c.name) name = true := by
  rw [findHandler, Option.or_eq_some_iff] at hc
  rcases hc with hc | ⟨-, hc⟩
  · exact ⟨List.mem_append_left _ (List.mem_of_find?_eq_some hc), by simpa using List.find?_some hc⟩
  · exact ⟨List.mem_append_right _ (List.mem_of_find?_eq_some hc), by simpa using List.find?_some hc⟩

/-- What is answered to words. -/
theorem ctcpAnswer_answers {nick name : Str} {args : List Str} (hh : h.Clean)
    (hcmds : ∀ c ∈ cmds, c.Clean) (hnick : NoEol nick) (hargs : ∀ w ∈ name :: args, Clean w)
    (hname : name.map Byte.lower ≠ (str "ACTION").map Byte.lower) :
    ∃ ret sent, ctcpAnswer h cmds nick (name :: args) = .ok (ret, sent) ∧ sent.length ≤ 1 ∧
      ((∀ c ∈ cmds, c.fn ≠ none) → sent.length = 1) ∧ ∀ a ∈ sent, IsAnswer nick a := by
  have single : ∀ {ret : Bool} {a : IrcLine}, IsAnswer nick a → ∃ ret' sent,
      (.ok (ret, [a]) : Except Fault (Bool × List IrcLine)) = .ok (ret', sent) ∧ sent.length ≤ 1 ∧
      ((∀ c ∈ cmds, c.fn ≠ none) → sent.length = 1) ∧ ∀ a ∈ sent, IsAnswer nick a := by
    intro ret a ha
    refine ⟨ret, [a], rfl, le_rfl, fun _ => rfl, fun b hb => ?_⟩
    rwa [List.mem_singleton.mp hb]
  rw [ctcpAnswer]
  cases hfind : findHandler cmds name with
  | none =>
      have herr : Replies [some (str "ERRMSG")] :=
        ⟨str "ERRMSG", [], rfl, by decide, by decide, by decide⟩
      obtain ⟨a, ha, hanswer⟩ := ctcpReply_answer hnick herr
      simp only [ha, ok_bind]
      exact single hanswer
  | some c =>
      obtain ⟨hmem, hsame⟩ := findHandler_some hfind
      obtain ⟨word, fn⟩ := c
      have hclean : (⟨word, fn⟩ : CtcpHandler).Clean := (List.mem_append.mp hmem).elim
        (hcmds _) (builtins_clean hcmds _)
      cases fn with
      | some fn =>
          obtain ⟨a, ha, hanswer⟩ := ctcpReply_answer hnick (hclean.fn fn rfl h _ hh hargs)
          simp only [ha, ok_bind]
          exact single hanswer
      | none =>
          refine ⟨true, [], rfl, Nat.zero_le _, fun hall => ?_, fun a ha => by cases ha⟩
          rcases List.mem_append.mp hmem with hmem | hmem
          · exact absurd rfl (hall _ hmem)
          · -- the entry without a function is that of an action
            simp only [builtins, List.mem_cons, CtcpHandler.mk.injEq, reduceCtorEq, and_false,
              List.not_mem_nil, or_false, false_or, and_true] at hmem
            subst hmem
            exact absurd (beq_iff_eq.mp hsame).symm hname

/-- A request is answered by one line, which is not kept and makes nothing else; a message without a
second mark is not answered, and one with nothing between its marks ends the program. -/
theorem request_answered {o text : Str} (hh : h.Clean) (hcmds : ∀ c ∈ cmds, c.Clean)
    (hreq : isRequest l = true) (ho : l.origin = some o) (hnick : NoEol o)
    (htext : l.args[2]? = some (ctcpMark :: text)) (hline : NoEol text) :
    (ctcpMark ∉ text → ctcpProcessRequest h cmds l = .ok (false, [])) ∧
    (text.head? = some ctcpMark → ctcpProcessRequest h cmds l = .error .null) ∧
    (ctcpMark ∈ text → text.head? ≠ some ctcpMark → ∃ ret sent,
      ctcpProcessRequest h cmds l = .ok (ret, sent) ∧ sent.length ≤ 1 ∧
        ((∀ c ∈ cmds, c.fn ≠ none) → sent.length = 1) ∧
        ∀ a ∈ sent, IsAnswer (o.takeWhile (· ≠ chr '!')) a) := by
  have hrun : ctcpProcessRequest h cmds l = if ctcpMark ∉ text then .ok (false, [])
      else ctcpAnswer h cmds (o.takeWhile (· ≠ chr '!'))
        (gStrsplit (text.takeWhile (· ≠ ctcpMark)) (chr ' ')) := by
    rw [ctcpProcessRequest, lineGetNick, ho, ok_bind, IrcLine.argStr_eq htext, ok_bind]
    rfl
  refine ⟨fun hopen => by rw [hrun, if_pos hopen], fun hempty => ?_, fun hclosed hne => ?_⟩
  · obtain ⟨b, hb⟩ := List.head?_eq_some_iff.mp hempty
    rw [hrun, hb, if_neg (by simp)]
    simp [gStrsplit, ctcpAnswer]
  · have hbody : text.takeWhile (· ≠ ctcpMark) ≠ [] := by
      cases text with
      | nil => cases hclosed
      | cons b rest =>
          have hb : b ≠ ctcpMark := fun e => hne (by rw [e]; rfl)
          simp [hb]
    have hclean : Clean (text.takeWhile (· ≠ ctcpMark)) :=
      ⟨fun hm => by simpa using List.mem_takeWhile_imp hm,
        fun b hb => hline b ((List.takeWhile_prefix _).subset hb)⟩
    obtain ⟨rest, hsplit⟩ := gStrsplit_head (c := chr ' ') hbody
    have hpieces : ∀ w ∈ gStrsplit (text.takeWhile (· ≠ ctcpMark)) (chr ' '), Clean w := by
      intro w hw
      rw [gStrsplit, if_neg hbody] at hw
      exact ⟨fun hm => hclean.1 (mem_of_mem_pieces hw _ hm),
        fun b hb => hclean.2 b (mem_of_mem_pieces hw b hb)⟩
    rw [hsplit] at hpieces
    rw [hrun, if_neg (not_not.mpr hclosed), hsplit]
    refine ctcpAnswer_answers hh hcmds (fun b hb => hnick b ((List.takeWhile_prefix _).subset hb))
      hpieces fun hname => ?_
    -- a name that is ACTION makes the message an action
    obtain ⟨text', htext', hno⟩ := request_text hreq
    cases htext.symm.trans htext'
    have hprefix := (List.takeWhile_prefix (p := (· ≠ chr ' '))
      (l := text.takeWhile (· ≠ ctcpMark))).trans (List.takeWhile_prefix _)
    have hlen := congrArg List.length hname
    rw [List.length_map, List.length_map] at hlen
    rw [List.prefix_iff_eq_take.mp hprefix, hlen] at hname
    exact hno hname

def someHost : Host :=
  ⟨some (str "Bob"), str "Mon Jan 1\n", str "3.1", str "Linux", str "6.1"⟩

theorem someHost_clean : someHost.Clean :=
  ⟨fun w hw => by cases hw; decide, by decide, by decide, by decide, by decide⟩

/-- A request for the version, as it comes to the network of the one who is asked. -/
def versionAsked : IrcLine := { askVersion with origin := some (str "me!u@h") }

theorem request_answered_version : ∃ ret a, ctcpProcessRequest someHost [] versionAsked = .ok (ret, [a]) ∧
    IsAnswer (str "me") a := by
  have htext : versionAsked.args[2]? = some (ctcpMark :: (str "VERSION" ++ [ctcpMark])) := rfl
  have hcmds : ∀ c ∈ ([] : List CtcpHandler), c.Clean := fun c hc => by cases hc
  obtain ⟨ret, sent, hrun, -, hone, hanswer⟩ := (request_answered (o := str "me!u@h") someHost_clean
    hcmds (by decide) rfl (by decide) htext (by decide)).2.2 (by decide) (by decide)
  obtain ⟨a, rfl⟩ := List.length_eq_one_iff.mp (hone fun c hc => by cases hc)
  exact ⟨ret, a, hrun, hanswer a List.mem_cons_self⟩

/-! ### The way back -/

/-- A line is sent to a client. -/
def Proxy.given (p : Proxy) (i : ℕ) (now : Long) (l : IrcLine) : Proxy :=
  { p with clients := p.clients.modify i fun a =>
      { a with client := { a.client with sent := a.client.sent ++ [(now, l)] } } }

end

end Ctrlproxy.Ctcp
