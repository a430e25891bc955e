import Ctrlproxy.Listener.Socks

/-!
# Listener — no connection before the password

A client gets to `SOCKS_STATE_NORMAL`, where its requests to connect are read, through `on_known`
alone: the one method without `handle_data` is never acceptable.  `Guarded` is that invariant, and
`reachable_authorised` reads off it that a callback for a connection is called only after
credentials were accepted.
-/

namespace Ctrlproxy.Listener
open Outcome

/-- A callback for a connection. -/
def Callback.connects : Callback → Bool
  | .auth .. => false
  | .verdict .. => false
  | .connectIpv4 => true
  | .connectIpv6 => true
  | .connectFqdn .. => true

/-- `socks_auth_simple` was called with some credentials, and then they were accepted. -/
def Accepted (h : List Callback) : Prop :=
  ∃ u p before after, h = before ++ .verdict u p true :: after ∧ .auth u p ∈ before

/-- Every connection comes after credentials that were accepted. -/
def Authorised (h : List Callback) : Prop :=
  ∀ before c after, h = before ++ c :: after → c.connects = true → Accepted before

theorem Accepted.append {h : List Callback} (ha : Accepted h) (t : List Callback) :
    Accepted (h ++ t) := by
  obtain ⟨u, p, before, after, rfl, hm⟩ := ha
  exact ⟨u, p, before, after ++ t, by simp, hm⟩

theorem Authorised.snoc {h : List Callback} (ha : Authorised h) {c : Callback}
    (hc : c.connects = true → Accepted h) : Authorised (h ++ [c]) := by
  intro before d after heq hd
  rcases List.eq_nil_or_concat after with rfl | ⟨init, last, rfl⟩
  · obtain ⟨rfl, hcd⟩ := List.append_inj' heq rfl
    cases hcd
    exact hc hd
  · rw [List.concat_eq_append, ← List.cons_append, ← List.append_assoc] at heq
    obtain ⟨rfl, -⟩ := List.append_inj' heq rfl
    exact ha before d init rfl hd

namespace PendingClient

/-! ### The invariant -/

/-- Connections are authorised, the state `NORMAL` is, and the method takes a password. -/
structure Guarded (cl : PendingClient) : Prop where
  history : Authorised cl.history
  normal : cl.state = .normal → Accepted cl.history
  method : cl.method ≠ some .noauth

variable {l : IrcListener} {cl : PendingClient} {a : Answers}

theorem new_guarded : listenerNewPendingClient.Guarded where
  history := fun before c after h => by
    cases (List.append_eq_nil_iff.mp h.symm).2
  normal := nofun
  method := nofun

/-- Reading changes nothing the invariant is about. -/
theorem Guarded.readChars (h : cl.Guarded) (b : Buffer) (buf : List Octet) (count : ℕ) :
    Ensures (cl.readChars a b buf count)
      (fun r => r.2.2.Guarded ∧ r.2.2.state = cl.state) fun _ => True := by
  have hkeep : ∀ unread consumed requests, Guarded
      { cl with unread := unread, consumed := consumed, requests := requests } :=
    fun _ _ _ => ⟨h.history, h.normal, h.method⟩
  unfold PendingClient.readChars
  dsimp only
  split
  · exact ⟨hkeep _ _ _, rfl⟩
  · split
    · exact ⟨hkeep _ _ _, rfl⟩
    · split
      · trivial
      · exact ⟨hkeep _ _ _, rfl⟩

theorem Guarded.error (h : cl.Guarded) (err : Octet) : (cl.listenerSocksError a err).2.Guarded := by
  unfold listenerSocksError listenerSocksReply
  split
  · exact ⟨h.history, h.normal, h.method⟩
  · exact h

theorem Guarded.kill (h : cl.Guarded) (ret : Bool) :
    Guarded (if ret then cl else { cl with killed := true }) := by
  split
  · exact h
  · exact ⟨h.history, h.normal, h.method⟩

/-- `on_known`, for credentials that were asked about. -/
theorem Guarded.onSocksPassAccepted (h : cl.Guarded) {u p : List Octet}
    (hm : .auth u p ∈ cl.history) (accepted writes : Bool) :
    (cl.onSocksPassAccepted writes u p accepted).2.Guarded := by
  have hh : Authorised (cl.history ++ [.verdict u p accepted]) := h.history.snoc nofun
  have hn : cl.state = .normal → Accepted (cl.history ++ [.verdict u p accepted]) :=
    fun hs => (h.normal hs).append _
  unfold PendingClient.onSocksPassAccepted
  dsimp only
  split
  · cases accepted with
    | true => exact ⟨hh, fun _ => ⟨u, p, cl.history, [], rfl, hm⟩, h.method⟩
    | false => exact ⟨hh, hn, h.method⟩
  · exact ⟨hh, hn, h.method⟩

theorem Guarded.socksAuthSimple (h : cl.Guarded) (u p : List Octet) :
    (cl.socksAuthSimple a u p).Guarded := by
  have hauth : Guarded { cl with history := cl.history ++ [.auth u p] } :=
    ⟨h.history.snoc nofun, fun hs => (h.normal hs).append _, h.method⟩
  unfold PendingClient.socksAuthSimple
  cases a.verdict with
  | none => exact hauth
  | some accepted =>
      exact hauth.onSocksPassAccepted (List.mem_append_right _ (List.mem_singleton_self _)) _ _

/-! ### Handling data -/

theorem Guarded.passHandleData (h : cl.Guarded) :
    Ensures (cl.passHandleData a) (fun r => r.2.Guarded) fun _ => True := by
  unfold PendingClient.passHandleData
  refine (h.readChars _ _ _).bind ?_
  rintro ⟨status, header, cl₁⟩ ⟨h₁, -⟩
  dsimp only at h₁ ⊢
  split
  · exact h₁
  split
  · exact h₁.error _
  refine (h₁.readChars _ _ _).bind ?_
  rintro ⟨status, uname, cl₂⟩ ⟨h₂, -⟩
  dsimp only at h₂ ⊢
  split
  · exact h₂
  refine (h₂.readChars _ _ _).bind ?_
  rintro ⟨status, header, cl₃⟩ ⟨h₃, -⟩
  dsimp only at h₃ ⊢
  split
  · exact h₃
  refine (h₃.readChars _ _ _).bind ?_
  rintro ⟨status, pass, cl₄⟩ ⟨h₄, -⟩
  dsimp only at h₄ ⊢
  split
  · exact h₄
  · exact h₄.socksAuthSimple _ _

theorem Guarded.gssapiHandleData (h : cl.Guarded) :
    Ensures (cl.gssapiHandleData a) (fun r => r.2.Guarded) fun _ => True := by
  unfold PendingClient.gssapiHandleData
  refine (h.readChars _ _ _).bind ?_
  rintro ⟨status, header, cl₁⟩ ⟨h₁, -⟩
  dsimp only at h₁ ⊢
  split
  · exact h₁
  split
  · exact h₁
  · exact (h₁.readChars _ _ _).bind fun r₂ h₂ => h₂.1

/-- Whatever is offered, the method that is chosen is acceptable. -/
theorem chooseMethod_ne_noauth (methods : List Octet) :
    chooseMethod a l methods ≠ some .noauth := by
  unfold chooseMethod
  refine List.foldlRecOn (motive := fun chosen => chosen ≠ some SocksMethod.noauth) methods _
    (Option.some_ne_none _).symm ?_
  intro chosen hc b _
  split
  · next m hm =>
    have hacc := List.find?_some hm
    rintro ⟨⟩
    simp [acceptable] at hacc
  · exact hc

/-- No list of methods leads to `SOCKS_STATE_NORMAL`. -/
theorem Guarded.handleMethods (h : cl.Guarded) (hs : cl.state ≠ .normal) :
    Ensures (cl.handleMethods a l) (fun r => r.2.Guarded ∧ r.2.state ≠ .normal) fun _ => True := by
  unfold PendingClient.handleMethods
  refine (h.readChars _ _ _).bind ?_
  rintro ⟨status, header, cl₁⟩ ⟨h₁, hs₁⟩
  dsimp only at h₁ hs₁ ⊢
  split
  · exact ⟨h₁, hs₁ ▸ hs⟩
  refine (h₁.readChars _ _ _).bind ?_
  rintro ⟨status, methods, cl₂⟩ ⟨h₂, hs₂⟩
  dsimp only at h₂ hs₂ ⊢
  have hst : cl₂.state ≠ .normal := hs₂ ▸ hs₁ ▸ hs
  split
  · exact ⟨⟨h₂.history, h₂.normal, nofun⟩, hst⟩
  have hne := chooseMethod_ne_noauth (a := a) (l := l) (methods.take (gint (byteAt header 0)).toNat)
  generalize chooseMethod a l _ = method at hne ⊢
  split
  · cases method with
    | none => exact ⟨⟨h₂.history, h₂.normal, hne⟩, hst⟩
    | some m =>
        cases m with
        | noauth => exact absurd rfl hne
        | gssapi => exact ⟨⟨h₂.history, nofun, nofun⟩, nofun⟩
        | usernamePw => exact ⟨⟨h₂.history, nofun, nofun⟩, nofun⟩
  · exact ⟨⟨h₂.history, h₂.normal, hne⟩, hst⟩

/-- A connection in `SOCKS_STATE_NORMAL`. -/
theorem Guarded.connect (h : cl.Guarded) (hs : cl.state = .normal) (c : Callback) :
    Guarded { cl with history := cl.history ++ [c] } :=
  ⟨h.history.snoc fun _ => h.normal hs, fun hs => (h.normal hs).append _, h.method⟩

theorem Guarded.handleFqdn (h : cl.Guarded) (hs : cl.state = .normal) (header : List Octet) :
    Ensures (cl.handleFqdn a l header) (fun r => r.2.Guarded) fun _ => True := by
  unfold PendingClient.handleFqdn
  refine (h.readChars _ _ _).bind fun r₁ h₁ => ?_
  refine (h₁.1.readChars _ _ _).bind fun r₂ h₂ => ?_
  refine (h₂.1.readChars _ _ _).bind fun r₃ h₃ => ?_
  dsimp only
  split
  · exact h₃.1.connect (h₃.2.trans (h₂.2.trans (h₁.2.trans hs))) _
  · exact h₃.1.error _

theorem Guarded.handleConnect (h : cl.Guarded) (hs : cl.state = .normal) :
    Ensures (cl.handleConnect a l) (fun r => r.2.Guarded) fun _ => True := by
  unfold PendingClient.handleConnect
  refine (h.readChars _ _ _).bind ?_
  rintro ⟨status, header, cl₁⟩ ⟨h₁, hs₁⟩
  dsimp only at h₁ hs₁ ⊢
  replace hs₁ := hs₁.trans hs
  split
  · exact h₁
  split
  · exact h₁.error _
  split
  · exact h₁.error _
  split
  · split
    · exact h₁.connect hs₁ _
    · exact h₁.error _
  split
  · split
    · exact h₁.connect hs₁ _
    · exact h₁.error _
  split
  · exact h₁.handleFqdn hs₁ _
  · exact h₁.error _

theorem Guarded.handleClientSocksData (h : cl.Guarded) :
    Ensures (cl.handleClientSocksData a l) (fun r => r.2.Guarded) fun _ => True := by
  unfold PendingClient.handleClientSocksData
  cases hs : cl.state with
  | unknown => exact h
  | new => exact (h.handleMethods (by simp [hs])).imp fun r hr => hr.1
  | auth =>
      dsimp only
      split
      · exact h.passHandleData
      · exact h.gssapiHandleData
      · trivial
  | normal => exact h.handleConnect hs

theorem Guarded.handleClientDetect (h : cl.Guarded) :
    Ensures (cl.handleClientDetect a) (fun r => r.2.Guarded) fun _ => True := by
  unfold PendingClient.handleClientDetect
  refine (h.readChars _ _ _).bind ?_
  rintro ⟨status, header, cl₁⟩ ⟨h₁, -⟩
  dsimp only at h₁ ⊢
  split
  · exact h₁
  split
  · exact ⟨h₁.history, nofun, h₁.method⟩
  · exact ⟨h₁.history, h₁.normal, h₁.method⟩

theorem Guarded.step (h : cl.Guarded) {e : Event} (ha : cl.Admits e) :
    Ensures (cl.step l e) Guarded fun _ => True := by
  cases e with
  | deliver bytes => exact ⟨h.history, h.normal, h.method⟩
  | receive a =>
      unfold PendingClient.step handleClientReceive
      dsimp only
      split
      · exact h.handleClientDetect.bind fun r hr => hr.kill r.1
      · exact h
      · exact h.handleClientSocksData.bind fun r hr => hr.kill r.1
  | known u p accepted writes => exact h.onSocksPassAccepted ha.2.2 accepted writes
  | hangup => exact ⟨h.history, h.normal, h.method⟩

/-- **No connection before the password.** In every run, however the bytes arrive, whatever the
arrays hold and whatever the callbacks answer: a callback for a connection comes after a call of
`socks_auth_simple` and a report of `on_known` that its credentials are accepted, and so does
`SOCKS_STATE_NORMAL`; no list of methods leads there. -/
theorem reachable_authorised (hr : Reach (step l) Admits listenerNewPendingClient cl) :
    Authorised cl.history ∧ (cl.state = .normal → Accepted cl.history) ∧
    ∀ a, cl.state = .new →
      Ensures (cl.handleMethods a l) (fun r => r.2.state ≠ .normal) fun _ => True := by
  have h : cl.Guarded := hr.invariant new_guarded fun cl e hcl he => hcl.step he
  exact ⟨h.history, h.normal, fun a hs => (h.handleMethods (by simp [hs])).imp fun r hr => hr.2⟩

instance (cl : PendingClient) (e : Event) : Decidable (cl.Admits e) := by
  unfold Admits
  cases e <;> infer_instance

/-- A client that offers two methods, gives a wrong password, then the right one, and connects. -/
theorem reachable_authorised_connected : ∃ cl,
    Reach (step ⟨false, false, false, true⟩) Admits listenerNewPendingClient cl ∧
    cl.history = [.auth [97] [98], .verdict [97] [98] false, .auth [97] [99],
      .verdict [97] [99] true, .connectFqdn [104] 80] ∧
    Authorised cl.history := by
  let a : Option Bool → Answers := fun verdict =>
    ⟨⟨.again, nofun⟩, fun _ _ => 0, true, verdict, false, false, true⟩
  have hrun : (admittedRun (step ⟨false, false, false, true⟩) Admits listenerNewPendingClient
      [.deliver [5, 2, 0, 2], .receive (a none), .receive (a none),
        .deliver [1, 1, 97, 1, 98], .receive (a (some false)), .deliver [1, 1, 97, 1, 99],
        .receive (a (some true)), .deliver [5, 1, 0, 3, 1, 104, 0, 80], .receive (a none)]).map
      PendingClient.history = some [.auth [97] [98], .verdict [97] [98] false, .auth [97] [99],
        .verdict [97] [99] true, .connectFqdn [104] 80] := by decide +kernel
  obtain ⟨cl, hcl, hh⟩ := Option.map_eq_some_iff.mp hrun
  have hr := Reach.refl.of_admittedRun hcl
  exact ⟨cl, hr, hh, (reachable_authorised hr).1⟩

end PendingClient

end Ctrlproxy.Listener
