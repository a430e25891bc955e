import Ctrlproxy.State.Membership

/-!
# State — hostmasks

A nick keeps its name, its user name, its host name and, besides them, the hostmask they make
up.  Every setter of `libirc/state.c` keeps the four together (`NameEdit.hostmask`), and so every
line does, with one exception: `handle_001` stores the name the server welcomed the user with and
leaves the hostmask as it was.
-/

namespace Ctrlproxy
open Outcome

/-- The hostmask of a nick names the nick, as far as all four parts are there. -/
def HostmaskNames (n : NetworkNick) : Prop :=
  ∀ hm nick username hostname, n.hostmask = some hm → n.nick = some nick →
    n.username = some username → n.hostname = some hostname →
    hm = nick ++ chr '!' :: username ++ chr '@' :: hostname

/-- The hostmasks of a state are consistent. -/
def Hostmasks (s : NetworkState) : Prop :=
  ∀ g, g = meRef ∨ g ∈ s.nicks → ∀ n, s.nickHeap g = some n → HostmaskNames n

/-! ### The setters -/

theorem HostmaskNames.of_eq {n n' : NetworkNick} (h : HostmaskNames n)
    (hh : n'.hostmask = n.hostmask) (hn : n'.nick = n.nick) (hu : n'.username = n.username)
    (hs : n'.hostname = n.hostname) : HostmaskNames n' := by
  unfold HostmaskNames
  rw [hh, hn, hu, hs]
  exact h

theorem networkNickSetData_names {n : NetworkNick} (h : HostmaskNames n) (nick username host : Str) :
    HostmaskNames (networkNickSetData n nick username host) := by
  unfold networkNickSetData
  dsimp only
  split
  · rintro hm a u s e₁ e₂ e₃ e₄
    cases e₁
    cases e₂
    cases e₃
    cases e₄
    rfl
  -- nothing changed: the old hostmask is made of the old parts, which are the new ones
  · rename_i hno
    simp only [not_or, not_not] at hno
    exact h.of_eq rfl hno.1.symm hno.2.1.symm hno.2.2.symm

theorem networkNickSetNick_names {n : NetworkNick} (h : HostmaskNames n) (nick : Str) :
    HostmaskNames (networkNickSetNick n nick) := by
  unfold networkNickSetNick
  split
  · exact h
  · rintro hm a u s e₁ e₂ e₃ e₄
    cases e₁
    cases e₂
    rw [show n.username = some u from e₃, show n.hostname = some s from e₄]
    rfl

theorem takeWhile_append_of_dropWhile {α : Type} {p : α → Bool} {l t : List α} {a : α}
    (h : l.dropWhile p = a :: t) : l = l.takeWhile p ++ a :: t := by
  rw [← h, List.takeWhile_append_dropWhile]

theorem dropWhile_ne_head {b c : Byte} {w t : Str} (h : w.dropWhile (· ≠ b) = c :: t) : c = b := by
  have := List.head?_dropWhile_not (fun x : Byte => decide (x ≠ b)) w
  rw [h] at this
  simpa using this

/-- The parts of a hostmask, put together, are the hostmask. -/
theorem splitHostmask_eq {hm nick username hostname : Str}
    (h : splitHostmask hm = (some nick, some username, some hostname)) :
    hm = nick ++ chr '!' :: username ++ chr '@' :: hostname := by
  unfold splitHostmask at h
  split at h
  · cases h
  rename_i b t ht
  dsimp only at h
  split at h
  · cases h
  rename_i c host hhost
  cases h
  have e₁ := takeWhile_append_of_dropWhile ht
  have e₂ := takeWhile_append_of_dropWhile hhost
  rw [dropWhile_ne_head ht] at e₁
  rw [dropWhile_ne_head hhost] at e₂
  rw [List.append_assoc, List.cons_append, ← e₂, ← e₁]

theorem networkNickSetHostmask_names {n : NetworkNick} (h : HostmaskNames n) (hm : Str) :
    HostmaskNames (networkNickSetHostmask n hm) := by
  unfold networkNickSetHostmask
  split
  · exact h
  · rintro hm' a u s e₁ e₂ e₃ e₄
    cases e₁
    exact splitHostmask_eq (Prod.ext e₂ (Prod.ext e₃ e₄))

theorem NameEdit.hostmask_names {n n' : NetworkNick} (e : NameEdit n n') (h : HostmaskNames n) :
    HostmaskNames n' := by
  cases e with
  | data nick username host => exact networkNickSetData_names h nick username host
  | nick nick => exact networkNickSetNick_names h nick
  | hostmask hm => exact networkNickSetHostmask_names h hm

theorem AttrEdit.hostmask_names {n n' : NetworkNick} (e : AttrEdit n n') (h : HostmaskNames n) :
    HostmaskNames n' := by
  cases e <;> exact h.of_eq rfl rfl rfl rfl

/-! ### Edits -/

/-- Every nick there is, listed or not, has a consistent hostmask. -/
def HostmasksLive (s : NetworkState) : Prop := ∀ r n, s.nickHeap r = some n → HostmaskNames n

theorem HostmasksLive.set {s s' : NetworkState} (h : HostmasksLive s) {r : Ref} {n : NetworkNick}
    (hs : s'.nickHeap = s.nickHeap.set r n) (hn : HostmaskNames n) : HostmasksLive s' := by
  intro x m hx
  rw [hs, Heap.set_apply] at hx
  split at hx
  · cases hx
    exact hn
  · exact h x m hx

theorem Trim.hostmasksLive {s s' : NetworkState} (e : Trim s s') (h : HostmasksLive s) :
    HostmasksLive s' := by
  cases e with
  | query hr => exact h.set rfl ((h _ _ hr).of_eq rfl rfl rfl rfl)
  | unlink _ _ _ _ hgn => exact h.set rfl ((h _ _ hgn).of_eq rfl rfl rfl rfl)
  | dropNick _ _ _ => exact fun r n hr => h r n (Heap.of_del hr)
  | dropChan _ _ _ => exact h

theorem Edit.hostmasksLive {s s' : NetworkState} (e : Edit s s') (h : HostmasksLive s) :
    HostmasksLive s' := by
  cases e with
  | quiet q =>
      cases q with
      | trim t => exact t.hostmasksLive h
      | nick hr he => exact h.set rfl (he.hostmask_names (h _ _ hr))
      | _ => exact h
  | name hr he => exact h.set rfl (he.hostmask_names (h _ _ hr))
  | addNick name => exact h.set rfl fun hm _ _ _ e => by cases e
  | addMemb _ _ _ hgn _ => exact h.set rfl ((h _ _ hgn).of_eq rfl rfl rfl rfl)

/-! ### Runs -/

/-- A 001 line repeats the name of the user, or the user has no full identity yet. -/
def HostmaskSafe (s : NetworkState) (l : IrcLine) : Prop :=
  commandOf l = some .c001 → ∀ me nick, s.nickHeap meRef = some me → l.args[1]? = some nick →
    me.nick = some nick ∨ me.username = none ∨ me.hostname = none ∨ me.hostmask = none

theorem Step.hostmasksLive {s s' : NetworkState} {l : IrcLine} (e : Step s l s')
    (hsafe : HostmaskSafe s l) (h : HostmasksLive s) : HostmasksLive s' := by
  cases e with
  | edits e => exact e.keeps Edit.hostmasksLive h
  | info i _ => exact h
  | rename hk hx hn =>
      refine h.set rfl ?_
      rintro hm a u w e₁ e₂ e₃ e₄
      rcases hsafe hk _ _ hn hx with e | e | e | e
      · exact h _ _ hn hm a u w e₁ (e.trans e₂) e₃ e₄
      · rw [show _ = some u from e₃] at e
        cases e
      · rw [show _ = some w from e₄] at e
        cases e
      · rw [show _ = some hm from e₁] at e
        cases e

theorem networkStateInit_hostmasksLive (nick username hostname : Str) :
    HostmasksLive (networkStateInit nick username hostname) := by
  intro r n hr
  change Heap.set Heap.empty meRef _ r = some n at hr
  rw [Heap.set_apply] at hr
  split at hr
  · cases hr
    exact networkNickSetData_names (fun hm _ _ _ e => by cases e) _ _ _
  · cases hr

/-- **Hostmasks name the current identity** in every state reached by lines among which each 001
repeats the user's name, or arrives while the user's identity is incomplete. -/
theorem reachable_hostmasks {nick username hostname : Str} {s : NetworkState}
    (h : Reach stateStep (fun s i => HostmaskSafe s i.2)
      (networkStateInit nick username hostname) s) : Hostmasks s := by
  have inv : Graph s ∧ HostmasksLive s := by
    refine h.invariant (I := fun s => Graph s ∧ HostmasksLive s)
      ⟨networkStateInit_graph _ _ _, networkStateInit_hostmasksLive _ _ _⟩ ?_
    rintro s i ⟨hg, hl⟩ hsafe
    exact (stateStep_step hg i).mono
      (fun _ hs => ⟨hs.graph hg, hs.hostmasksLive hsafe hl⟩) fun _ _ => trivial
  exact fun g _ n hn => inv.2 g n hn

theorem reachable_hostmasks_welcome : ∃ s,
    Reach stateStep (fun s i => HostmaskSafe s i.2)
      (networkStateInit (str "me") (str "user") (str "host")) s ∧
    (s.nickHeap meRef).bind (·.hostmask) = some (str "me!user@host") ∧ Hostmasks s := by
  let s₀ := networkStateInit (str "me") (str "user") (str "host")
  let i := inputOf ":srv 001 me :Welcome"
  have run : (stateStep s₀ i).map (fun s => (s.nickHeap meRef).bind (·.hostmask)) =
      .ok (some (str "me!user@host")) := by decide +kernel
  obtain ⟨s, hs, hm⟩ := map_eq_ok run
  have harg : i.2.args[1]? = some (str "me") := by decide +kernel
  have hsafe : HostmaskSafe s₀ i.2 := by
    intro _ me nick hme hnick
    rw [harg] at hnick
    cases hme
    cases hnick
    exact .inl rfl
  have hr : Reach stateStep (fun s i => HostmaskSafe s i.2) s₀ s := .step .refl hsafe hs
  exact ⟨s, hr, hm, reachable_hostmasks hr⟩

/-- A server that welcomes the user under another name leaves a hostmask with the old name. -/
theorem hostmasks_stale_after_001 : ¬ ∀ (nick username hostname : Str) (s : NetworkState),
    Reach stateStep (fun _ _ => True) (networkStateInit nick username hostname) s →
      Hostmasks s := by
  intro claim
  let s₀ := networkStateInit (str "me") (str "user") (str "host")
  have run : (stateStep s₀ (inputOf ":srv 001 you :Welcome")).map (fun s =>
      (s.nickHeap meRef).map fun n => [n.hostmask, n.nick, n.username, n.hostname]) =
      .ok (some [some (str "me!user@host"), some (str "you"), some (str "user"),
        some (str "host")]) := by decide +kernel
  obtain ⟨s, hs, hme⟩ := map_eq_ok run
  obtain ⟨n, hn, hid⟩ := Option.map_eq_some_iff.mp hme
  simp only [List.cons.injEq, and_true] at hid
  obtain ⟨hm, hnick, huser, hhost⟩ := hid
  have bad := claim _ _ _ s (.step .refl trivial hs) meRef (.inl rfl) n hn _ _ _ _ hm hnick huser
    hhost
  exact absurd bad (by decide +kernel)

/-! ### The nick in front of a hostmask -/

/-- What a string says up to its first `!`. -/
abbrev upToBang (w : Str) : Str := w.takeWhile (· ≠ chr '!')

/-- The hostmask of a nick and its name say the same up to the first `!`, as far as both are
there. -/
def HostmaskNick (n : NetworkNick) : Prop :=
  ∀ hm nick, n.hostmask = some hm → n.nick = some nick → upToBang hm = upToBang nick

theorem HostmaskNick.of_eq {n n' : NetworkNick} (h : HostmaskNick n)
    (hh : n'.hostmask = n.hostmask) (hn : n'.nick = n.nick) : HostmaskNick n' := by
  unfold HostmaskNick
  rw [hh, hn]
  exact h

theorem upToBang_append (nick rest : Str) :
    upToBang (nick ++ chr '!' :: rest) = upToBang nick := by
  induction nick with
  | nil => rfl
  | cons b nick ih =>
      by_cases hb : b = chr '!'
      · simp [upToBang, hb]
      · simpa [upToBang, hb] using ih

theorem upToBang_printHostmask (nick : Str) (username hostname : Option Str) :
    upToBang (printHostmask (some nick) username hostname) = upToBang nick := by
  rw [printHostmask, List.append_assoc, List.cons_append]
  exact upToBang_append nick _

theorem upToBang_idem (w : Str) : upToBang (upToBang w) = upToBang w := by
  induction w with
  | nil => rfl
  | cons b w ih =>
      by_cases hb : b = chr '!'
      · simp [upToBang, hb]
      · simpa [upToBang, hb] using ih

theorem splitHostmask_upToBang {hm nick : Str} (h : (splitHostmask hm).1 = some nick) :
    nick = upToBang hm := by
  unfold splitHostmask at h
  split at h
  · cases h
  · dsimp only at h
    split at h <;> exact (Option.some.inj h).symm

theorem NameEdit.hostmask_nick {n n' : NetworkNick} (e : NameEdit n n') (h : HostmaskNick n) :
    HostmaskNick n' := by
  cases e with
  | data nick username host =>
      unfold networkNickSetData
      dsimp only
      split
      · intro hm a e₁ e₂
        cases e₁
        cases e₂
        exact upToBang_printHostmask _ _ _
      · rename_i hno
        rw [not_or, not_not] at hno
        exact h.of_eq rfl hno.1.symm
  | nick nick =>
      unfold networkNickSetNick
      split
      · exact h
      · intro hm a e₁ e₂
        cases e₁
        cases e₂
        exact upToBang_printHostmask _ _ _
  | hostmask hm =>
      unfold networkNickSetHostmask
      split
      · exact h
      · intro hm' a e₁ e₂
        cases e₁
        rw [splitHostmask_upToBang e₂, upToBang_idem]

theorem AttrEdit.hostmask_nick {n n' : NetworkNick} (e : AttrEdit n n') (h : HostmaskNick n) :
    HostmaskNick n' := by
  cases e <;> exact h.of_eq rfl rfl

/-- The hostmask of every nick but the user's own begins with its name. -/
def HostmaskNicks (s : NetworkState) : Prop :=
  ∀ r n, r ≠ meRef → s.nickHeap r = some n → HostmaskNick n

theorem HostmaskNicks.set {s s' : NetworkState} (h : HostmaskNicks s) {r : Ref} {n : NetworkNick}
    (hs : s'.nickHeap = s.nickHeap.set r n) (hn : r ≠ meRef → HostmaskNick n) :
    HostmaskNicks s' := by
  intro x m hx hm
  rw [hs, Heap.set_apply] at hm
  split at hm
  · subst_vars
    cases hm
    exact hn hx
  · exact h x m hx hm

theorem Trim.hostmaskNicks {s s' : NetworkState} (e : Trim s s') (h : HostmaskNicks s) :
    HostmaskNicks s' := by
  cases e with
  | query hr => exact h.set rfl fun hne => (h _ _ hne hr).of_eq rfl rfl
  | unlink _ _ _ _ hgn => exact h.set rfl fun hne => (h _ _ hne hgn).of_eq rfl rfl
  | dropNick _ _ _ => exact fun r n hne hr => h r n hne (Heap.of_del hr)
  | dropChan _ _ _ => exact h

theorem Edit.hostmaskNicks {s s' : NetworkState} (e : Edit s s') (h : HostmaskNicks s) :
    HostmaskNicks s' := by
  cases e with
  | quiet q =>
      cases q with
      | trim t => exact t.hostmaskNicks h
      | nick hr he => exact h.set rfl fun hne => he.hostmask_nick (h _ _ hne hr)
      | _ => exact h
  | name hr he => exact h.set rfl fun hne => he.hostmask_nick (h _ _ hne hr)
  | addNick name => exact h.set rfl fun _ hm _ e => by cases e
  | addMemb _ _ _ hgn _ => exact h.set rfl fun hne => (h _ _ hne hgn).of_eq rfl rfl

/-- A 001 line renames the user only. -/
theorem Step.hostmaskNicks {s s' : NetworkState} {l : IrcLine} (e : Step s l s')
    (h : HostmaskNicks s) : HostmaskNicks s' := by
  cases e with
  | edits e => exact e.keeps Edit.hostmaskNicks h
  | info i _ => exact h
  | rename _ _ _ => exact h.set rfl fun hne => absurd rfl hne

/-- Every line keeps the names in front of the hostmasks. -/
theorem reachable_hostmaskNicks {nick username hostname : Str} {s : NetworkState}
    {ok : NetworkState → Input → Prop}
    (h : Reach stateStep ok (networkStateInit nick username hostname) s) :
    Graph s ∧ HostmaskNicks s := by
  refine h.invariant (I := fun s => Graph s ∧ HostmaskNicks s)
    ⟨networkStateInit_graph _ _ _, ?_⟩ ?_
  · intro r n hne hr
    rw [show (networkStateInit nick username hostname).nickHeap r = none from
      Heap.set_other hne] at hr
    cases hr
  · rintro s i ⟨hg, hl⟩ -
    exact (stateStep_step hg i).mono
      (fun _ hs => ⟨hs.graph hg, hs.hostmaskNicks hl⟩) fun _ _ => trivial

end Ctrlproxy
