import Ctrlproxy.Listener.Auth

/-!
# Listener — the fields of a message

`Conversation` says which bytes a client may have sent and which callbacks they announce, field by
field: a length byte and as many bytes.  What is read follows it as long as every message is
there when it is read, its lengths are below 128 and its strings hold no zero (`Whole`): a length
is held in a signed `gchar`, and a read that returns less than it was asked for goes unnoticed.
-/

namespace Ctrlproxy.Listener
open Outcome
open Transport (GIOStatus)

/-! ### Conversations -/

/-- The bytes that were read are messages, one after the other, and the callbacks are called with
what the messages announce. -/
inductive Conversation :
    List Octet → List Callback → SocksState → Option SocksMethod → Prop where
  | start : Conversation [] [] .unknown none
  | version {c h m} : Conversation c h .unknown m → Conversation (c ++ [SOCKS_VERSION]) h .new m
  | methods {c h m n ms m'} : Conversation c h .new m → ms.length = Fin.val n → m' ≠ .noauth →
      Conversation (c ++ n :: ms) h .auth (some m')
  | credentials {c h v nu u np p} : Conversation c h .auth (some .usernamePw) →
      v = SOCKS_VERSION ∨ v = 1 → u.length = Fin.val nu → p.length = Fin.val np →
      Conversation (c ++ v :: nu :: u ++ np :: p) (h ++ [.auth u p]) .auth (some .usernamePw)
  | token {c h} (bs : List Octet) : Conversation c h .auth (some .gssapi) →
      Conversation (c ++ bs) h .auth (some .gssapi)
  | verdict {c h st m u p} (accepted : Bool) : Conversation c h st m → .auth u p ∈ h →
      Conversation c (h ++ [.verdict u p accepted]) st m
  | accepted {c h st m u p} : Conversation c h st m → .auth u p ∈ h →
      Conversation c (h ++ [.verdict u p true]) .normal m
  | ipv4 {c h m} (r : Octet) : Conversation c h .normal m →
      Conversation (c ++ [SOCKS_VERSION, CMD_CONNECT, r, ATYP_IPV4]) (h ++ [.connectIpv4]) .normal m
  | ipv6 {c h m} (r : Octet) : Conversation c h .normal m →
      Conversation (c ++ [SOCKS_VERSION, CMD_CONNECT, r, ATYP_IPV6]) (h ++ [.connectIpv6]) .normal m
  | fqdn {c h m n host} (r p₁ p₂ : Octet) : Conversation c h .normal m →
      host.length = Fin.val n →
      Conversation (c ++ [SOCKS_VERSION, CMD_CONNECT, r, ATYP_FQDN] ++ n :: host ++ [p₁, p₂])
        (h ++ [.connectFqdn host (256 * p₁.val + p₂.val)]) .normal m

theorem Conversation.auth_method {c h st m} (hc : Conversation c h st m) (hst : st = .auth) :
    m = some .usernamePw ∨ m = some .gssapi := by
  induction hc with
  | @methods _ _ _ _ _ m' _ _ hne =>
      cases m' with
      | noauth => exact absurd rfl hne
      | gssapi => exact .inr rfl
      | usernamePw => exact .inl rfl
  | credentials => exact .inl rfl
  | token => exact .inr rfl
  | verdict _ _ _ ih => exact ih hst
  | _ => cases hst

/-- Nothing is called before the version. -/
theorem Conversation.unknown_history {c h st m} (hc : Conversation c h st m) (hst : st = .unknown) :
    h = [] := by
  induction hc with
  | start => rfl
  | verdict _ _ hm ih =>
      rw [ih hst] at hm
      cases hm
  | _ => cases hst

/-- The strings of a conversation are no longer than what was read. -/
theorem Conversation.auth_length {c h st m u p} (hc : Conversation c h st m)
    (hm : Callback.auth u p ∈ h) : u.length + p.length ≤ c.length := by
  -- another callback, or none, and no fewer bytes
  have hold : ∀ {c' c : List Octet} {h : List Callback} {x : Callback},
      Callback.auth u p ∈ h ++ [x] → x ≠ .auth u p →
      (Callback.auth u p ∈ h → u.length + p.length ≤ c'.length) → c'.length ≤ c.length →
      u.length + p.length ≤ c.length := by
    intro c' c h x hm hx ih hle
    rcases List.mem_append.mp hm with hm | hm
    · exact (ih hm).trans hle
    · exact absurd (List.mem_singleton.mp hm).symm hx
  induction hc with
  | start => cases hm
  | version _ ih => exact (ih hm).trans (by simp)
  | methods _ _ _ ih => exact (ih hm).trans (by simp)
  | token _ _ ih => exact (ih hm).trans (by simp)
  | credentials _ _ _ _ ih =>
      rcases List.mem_append.mp hm with hm | hm
      · exact (ih hm).trans (by simp)
      · cases List.mem_singleton.mp hm
        simp
        omega
  | verdict _ _ _ ih => exact hold hm nofun ih (le_refl _)
  | accepted _ _ ih => exact hold hm nofun ih (le_refl _)
  | ipv4 _ _ ih => exact hold hm nofun ih (by simp)
  | ipv6 _ _ ih => exact hold hm nofun ih (by simp)
  | fqdn _ _ _ _ _ ih => exact hold hm nofun ih (by simp)

/-! ### Whole messages -/

/-- After the length byte of a field: nothing, or the whole of the field. -/
def FieldThere (n : Octet) (next : List Octet → List Octet → Prop) (bytes : List Octet) : Prop :=
  bytes = [] ∧ n ≠ 0 ∨ ∃ field rest, bytes = field ++ rest ∧ field.length = n.val ∧ next field rest

/-- Nothing, or a length byte below 128 and what there is of its field. -/
def FieldWhole (next : List Octet → List Octet → Prop) : List Octet → Prop
  | [] => True
  | n :: bytes => n.val < 128 ∧ FieldThere n next bytes

/-- A user name and a password. -/
def CredentialsWhole : List Octet → Prop
  | [] => True
  | v :: bytes => v = SOCKS_VERSION ∨ v = 1 →
      bytes ≠ [] ∧ FieldWhole (fun u => FieldWhole fun p _ => 0 ∉ u ∧ 0 ∉ p) bytes

/-- A request to connect; what is refused need not be whole. -/
def RequestWhole : List Octet → Prop
  | [] => True
  | [v] => v ≠ SOCKS_VERSION
  | [v, c] => v = SOCKS_VERSION → c ≠ CMD_CONNECT
  | [v, c, _] => v = SOCKS_VERSION → c ≠ CMD_CONNECT
  | v :: c :: _ :: t :: bytes => v = SOCKS_VERSION → c = CMD_CONNECT → t = ATYP_FQDN →
      ∃ n host p₁ p₂ rest, bytes = n :: host ++ p₁ :: p₂ :: rest ∧ n.val < 128 ∧
        host.length = n.val ∧ 0 ∉ host

namespace PendingClient

/-- What is there when it is read is a whole message. -/
def Whole (cl : PendingClient) : Event → Prop
  | .receive a =>
      match cl.type, cl.state, cl.method with
      | .unknown, _, _ => cl.unread ≠ [] ∨ a.noData.1 ≠ .again
      | .socks, .new, _ => FieldWhole (fun _ _ => True) cl.unread
      | .socks, .auth, some .usernamePw => CredentialsWhole cl.unread
      | .socks, .normal, _ => RequestWhole cl.unread
      | _, _, _ => True
  | _ => True

/-- Never more than 255 bytes are asked for into an array of 256. -/
def Small (cl : PendingClient) : Prop := ∀ q ∈ cl.requests, q.1.isField = true → q.2 ≤ 255

/-! ### Reading -/

variable {l : IrcListener} {cl : PendingClient} {a : Answers}

/-- The client after a read. -/
def reads (cl : PendingClient) (b : Buffer) (count : ℕ) : PendingClient :=
  { cl with
    requests := cl.requests ++ [(b, count)]
    unread := cl.unread.drop count
    consumed := cl.consumed ++ cl.unread.take count }

/-- A read that does not write beyond the array. -/
theorem readChars_eq (b : Buffer) (buf : List Octet) {count : ℕ}
    (hb : (cl.unread.take count).length ≤ buf.length) : cl.readChars a b buf count = .ok
      (if count ≠ 0 ∧ cl.unread = [] then a.noData else .normal,
        cl.unread.take count ++ buf.drop (cl.unread.take count).length, cl.reads b count) := by
  unfold PendingClient.readChars reads
  dsimp only
  by_cases hc : count = 0
  · simp [hc]
  · rw [if_neg hc]
    by_cases hu : cl.unread = []
    · simp [hc, hu]
    · rw [if_neg hu, if_neg (not_lt.mpr hb), if_neg fun h => hu h.2]

@[simp] theorem length_array (b : Buffer) (n : ℕ) : (a.array b n).length = n := by simp [Answers.array]

theorem gsize_of_lt {b : Octet} (h : b.val < 128) : gsize b = b.val := if_pos h

/-- The string in an array: what was read, up to the zero that is put behind it. -/
theorem cString_set {bytes buf : List Octet} {n : Octet} (hn : bytes.length = n.val)
    (hb : buf.length = 0x100) (h0 : 0 ∉ bytes) :
    cString ((bytes ++ buf.drop n.val).set n.val 0) = bytes := by
  have hne : (buf.drop n.val) ≠ [] := by
    intro h
    have hlen := congrArg List.length h
    rw [List.length_drop, hb, List.length_nil] at hlen
    have := n.isLt
    omega
  obtain ⟨b, tail, htail⟩ := List.exists_cons_of_ne_nil hne
  rw [htail, ← hn, List.set_append_right _ _ (le_refl _), Nat.sub_self, List.set_cons_zero]
  unfold cString
  rw [List.takeWhile_append_of_pos]
  · simp
  · intro x hx
    exact decide_eq_true fun h => h0 (h ▸ hx)

/-! ### What handling data keeps -/

/-- The bytes that were read and the callbacks are a conversation. -/
def Talk (cl : PendingClient) : Prop := Conversation cl.consumed cl.history cl.state cl.method

/-- The callbacks belong to a conversation with the first of the bytes that were read. -/
structure Told (cl : PendingClient) : Prop where
  part : ∃ c st m, c <+: cl.consumed ∧ Conversation c cl.history st m
  small : cl.Small

/-- After data was handled: when the client stays, the conversation goes on. -/
structure Handled (r : Bool × PendingClient) : Prop where
  told : r.2.Told
  talk : r.1 = true → r.2.Talk
  type : r.2.type = .socks

/-- Bytes were read, and nothing was called. -/
structure Grows (cl cl' : PendingClient) : Prop where
  history : cl'.history = cl.history
  consumed : cl.consumed <+: cl'.consumed
  small : cl.Small → cl'.Small
  type : cl'.type = cl.type

theorem Grows.trans {cl₁ cl₂ cl₃ : PendingClient} (h : Grows cl₁ cl₂) (h' : Grows cl₂ cl₃) :
    Grows cl₁ cl₃ :=
  ⟨h'.history.trans h.history, h.consumed.trans h'.consumed, h'.small ∘ h.small,
    h'.type.trans h.type⟩

theorem small_snoc (hs : cl.Small) {q : Buffer × ℕ} (hq : q.1.isField = true → q.2 ≤ 255) :
    ∀ q' ∈ cl.requests ++ [q], q'.1.isField = true → q'.2 ≤ 255 := by
  intro q' hm
  rcases List.mem_append.mp hm with hm | hm
  · exact hs q' hm
  · rw [List.mem_singleton.mp hm]
    exact hq

theorem grows_reads {b : Buffer} {count : ℕ} (hq : b.isField = true → count ≤ 255) :
    Grows cl (cl.reads b count) :=
  ⟨rfl, List.prefix_append _ _, fun hs => small_snoc hs hq, rfl⟩

/-- `bytes` were read, and `rest` is left. -/
structure After (cl cl' : PendingClient) (bytes rest : List Octet) : Prop where
  unread : cl'.unread = rest
  consumed : cl'.consumed = cl.consumed ++ bytes
  history : cl'.history = cl.history
  state : cl'.state = cl.state
  method : cl'.method = cl.method
  type : cl'.type = cl.type
  small : cl.Small → cl'.Small

theorem After.grows {cl cl' : PendingClient} {bytes rest : List Octet} (h : After cl cl' bytes rest) :
    Grows cl cl' :=
  ⟨h.history, h.consumed ▸ List.prefix_append _ _, h.small, h.type⟩

theorem After.trans {cl₁ cl₂ cl₃ : PendingClient} {b₁ b₂ r₁ r₂ : List Octet}
    (h : After cl₁ cl₂ b₁ r₁) (h' : After cl₂ cl₃ b₂ r₂) : After cl₁ cl₃ (b₁ ++ b₂) r₂ where
  unread := h'.unread
  consumed := by rw [h'.consumed, h.consumed, List.append_assoc]
  history := h'.history.trans h.history
  state := h'.state.trans h.state
  method := h'.method.trans h.method
  type := h'.type.trans h.type
  small := h'.small ∘ h.small

/-- A read that finds nothing. -/
theorem readChars_nothing (b : Buffer) (buf : List Octet) {count : ℕ} (hc : count ≠ 0)
    (hu : cl.unread = []) (hq : b.isField = true → count ≤ 255) :
    ∃ cl', cl.readChars a b buf count = .ok (a.noData, buf, cl') ∧ Grows cl cl' := by
  refine ⟨_, ?_, grows_reads hq⟩
  rw [readChars_eq _ _ (by simp [hu]), if_pos ⟨hc, hu⟩]
  simp [hu]

/-- A read that finds all it asks for. -/
theorem readChars_all (b : Buffer) (buf : List Octet) {bytes rest : List Octet} {count : ℕ}
    (hu : cl.unread = bytes ++ rest) (hc : bytes.length = count) (hb : count ≤ buf.length)
    (hq : b.isField = true → count ≤ 255) :
    ∃ cl', cl.readChars a b buf count = .ok (.normal, bytes ++ buf.drop count, cl') ∧
      After cl cl' bytes rest := by
  subst hc
  refine ⟨cl.reads b bytes.length, ?_, ?_⟩
  · rw [readChars_eq _ _ (by simp [hu, hb]), if_neg]
    · simp [hu]
    · rintro ⟨hne, hnil⟩
      rw [hu, List.append_eq_nil_iff] at hnil
      exact hne (by simp [hnil.1])
  · exact ⟨by simp [reads, hu], by simp [reads, hu], rfl, rfl, rfl, rfl, (grows_reads hq).small⟩

theorem grows_error (err : Octet) : Grows cl (cl.listenerSocksError a err).2 := by
  unfold listenerSocksError listenerSocksReply
  split
  · exact ⟨rfl, List.prefix_rfl, id, rfl⟩
  · exact ⟨rfl, List.prefix_rfl, id, rfl⟩

/-- An error is no success. -/
theorem error_fst {err : Octet} (he : err ≠ REP_OK) : (cl.listenerSocksError a err).1 = false := by
  unfold listenerSocksError listenerSocksReply
  split
  · exact decide_eq_false he
  · rfl

theorem Talk.told (h : cl.Talk) (hs : cl.Small) : cl.Told :=
  ⟨⟨_, _, _, List.prefix_rfl, h⟩, hs⟩

theorem Talk.grown (h : cl.Talk) (hs : cl.Small) {cl' : PendingClient} (hg : Grows cl cl') :
    cl'.Told := by
  refine ⟨⟨_, cl.state, cl.method, hg.consumed, ?_⟩, hg.small hs⟩
  rw [hg.history]
  exact h

/-- The client is refused. -/
theorem Talk.refused (h : cl.Talk) (hs : cl.Small) (ht : cl.type = .socks)
    {r : Bool × PendingClient} (hr : r.1 = false) (hg : Grows cl r.2) : Handled r where
  told := h.grown hs hg
  talk := fun hret => by cases hr.symm.trans hret
  type := hg.type.trans ht

theorem Talk.error (h : cl.Talk) (hs : cl.Small) (ht : cl.type = .socks) {cl' : PendingClient}
    (hg : Grows cl cl') {err : Octet} (he : err ≠ REP_OK) : Handled (cl'.listenerSocksError a err) :=
  h.refused hs ht (error_fst he) (hg.trans (grows_error err))

/-- `on_known` goes on with the conversation. -/
theorem Talk.onSocksPassAccepted (h : cl.Talk) {u p : List Octet} (hm : .auth u p ∈ cl.history)
    (accepted writes : Bool) : (cl.onSocksPassAccepted writes u p accepted).2.Talk := by
  unfold PendingClient.onSocksPassAccepted
  dsimp only
  split
  · cases accepted with
    | true => exact Conversation.accepted h hm
    | false => exact Conversation.verdict false h hm
  · exact Conversation.verdict accepted h hm

theorem onSocksPassAccepted_frame (cl : PendingClient) (u p : List Octet)
    (accepted writes : Bool) :
    (cl.onSocksPassAccepted writes u p accepted).2.type = cl.type ∧
      (cl.onSocksPassAccepted writes u p accepted).2.requests = cl.requests ∧
      (cl.onSocksPassAccepted writes u p accepted).2.killed = cl.killed := by
  unfold PendingClient.onSocksPassAccepted
  cases writes <;> cases accepted <;> exact ⟨rfl, rfl, rfl⟩

theorem Talk.socksAuthSimple {u p : List Octet}
    (h : Talk { cl with history := cl.history ++ [.auth u p] }) (hs : cl.Small)
    (ht : cl.type = .socks) : Handled (true, cl.socksAuthSimple a u p) := by
  unfold PendingClient.socksAuthSimple
  dsimp only
  cases a.verdict with
  | none => exact ⟨h.told hs, fun _ => h, ht⟩
  | some accepted =>
      have hm : Callback.auth u p ∈ cl.history ++ [.auth u p] :=
        List.mem_append_right _ (List.mem_singleton_self _)
      have htalk := h.onSocksPassAccepted hm accepted a.writes
      obtain ⟨ht', hr, -⟩ := onSocksPassAccepted_frame
        { cl with history := cl.history ++ [.auth u p] } u p accepted a.writes
      refine ⟨htalk.told ?_, fun _ => htalk, ht'.trans ht⟩
      show ∀ q ∈ PendingClient.requests _, _
      rw [hr]
      exact hs

/-- A field that is whole, or not there at all, is read as it is announced. -/
theorem readField {n : Octet} {next : List Octet → List Octet → Prop} (b : Buffer)
    (buf : List Octet) (hb : buf.length = 0x100) (hn : n.val < 128) (hf : FieldThere n next cl.unread) :
    (∃ cl', cl.readChars a b buf (gsize n) = .ok (a.noData, buf, cl') ∧ Grows cl cl') ∨
    ∃ cl' field rest, cl.readChars a b buf (gsize n) = .ok (.normal, field ++ buf.drop n, cl') ∧
      After cl cl' field rest ∧ field.length = n.val ∧ next field rest := by
  rw [gsize_of_lt hn]
  rcases hf with ⟨hnil, hn0⟩ | ⟨field, rest, heq, hlen, hnext⟩
  · exact .inl (readChars_nothing b buf (Fin.val_ne_zero_iff.mpr hn0) hnil fun _ => by omega)
  · obtain ⟨cl', hread, hafter⟩ := readChars_all (a := a) b buf heq hlen (by omega) fun _ => by omega
    exact .inr ⟨cl', field, rest, hread, hafter, hlen, hnext⟩

/-! ### Handling data -/

theorem Talk.passHandleData (h : cl.Talk) (hst : cl.state = .auth)
    (hm : cl.method = some .usernamePw) (hs : cl.Small) (ht : cl.type = .socks)
    (hw : CredentialsWhole cl.unread) : Total (cl.passHandleData a) Handled := by
  have hno : (a.noData : GIOStatus) ≠ .normal := a.noData.2
  have hyes : ¬ (GIOStatus.normal ≠ .normal) := not_not.mpr rfl
  unfold PendingClient.passHandleData
  cases hu : cl.unread with
  | nil =>
      obtain ⟨cl₁, hread, hg⟩ := readChars_nothing (a := a) .header (a.array .header 2) (Nat.succ_ne_zero 1)
        hu nofun
      rw [hread, ok_bind]
      dsimp only
      rw [if_pos hno]
      exact h.refused hs ht rfl hg
  | cons v bytes =>
      rw [hu] at hw
      by_cases hv : v = SOCKS_VERSION ∨ v = 1
      · obtain ⟨hne, hf⟩ := hw hv
        obtain ⟨n, bytes, rfl⟩ := List.exists_cons_of_ne_nil hne
        obtain ⟨hn, hf⟩ := hf
        -- the version and the length of the user name
        obtain ⟨cl₁, hread, h₁⟩ := readChars_all (a := a) .header (a.array .header 2)
          (show cl.unread = [v, n] ++ bytes from hu) (show _ = 2 from rfl) (by simp) (by simp)
        rw [hread, ok_bind]
        dsimp only
        rw [if_neg hyes, if_neg fun hb => hv.elim hb.1 hb.2,
          show byteAt ([v, n] ++ (a.array .header 2).drop 2) 1 = n from rfl]
        -- the user name
        obtain ⟨cl₂, hread, hg⟩ | ⟨cl₂, u, rest, hread, h₂, hulen, hf⟩ :=
          readField (a := a) .uname (a.array .uname 0x100) (by simp) hn (h₁.unread ▸ hf)
        · rw [hread, ok_bind]
          dsimp only
          rw [if_pos hno]
          exact h.refused hs ht rfl (h₁.grows.trans hg)
        rw [hread, ok_bind]
        dsimp only
        rw [if_neg hyes]
        have h₂ := h₁.trans h₂
        -- the length of the password
        cases rest with
        | nil =>
            obtain ⟨cl₃, hread, hg⟩ := readChars_nothing (a := a) .header ([v, n] ++ (a.array .header 2).drop 2)
              Nat.one_ne_zero h₂.unread (by simp)
            rw [hread, ok_bind]
            dsimp only
            rw [if_pos hno]
            exact h.refused hs ht rfl (h₂.grows.trans hg)
        | cons np rest =>
            obtain ⟨hnp, hf⟩ := hf
            obtain ⟨cl₃, hread, h₃⟩ := readChars_all (a := a) .header ([v, n] ++ (a.array .header 2).drop 2)
              (show cl₂.unread = [np] ++ rest from h₂.unread) (show _ = 1 from rfl) (by simp)
              (by simp)
            have h₃ := h₂.trans h₃
            rw [hread, ok_bind]
            dsimp only
            rw [if_neg hyes,
              show byteAt ([np] ++ ([v, n] ++ (a.array .header 2).drop 2).drop 1) 0 = np from rfl]
            -- the password
            obtain ⟨cl₄, hread, hg⟩ | ⟨cl₄, p, rest, hread, h₄, hplen, hu0, hp0⟩ :=
              readField (a := a) .pass (a.array .pass 0x100) (by simp) hnp (h₃.unread ▸ hf)
            · rw [hread, ok_bind]
              dsimp only
              rw [if_pos hno]
              exact h.refused hs ht rfl (h₃.grows.trans hg)
            have h₄ := h₃.trans h₄
            rw [hread, ok_bind]
            dsimp only
            rw [if_neg hyes, cString_set hulen (by simp) hu0, cString_set hplen (by simp) hp0]
            refine Talk.socksAuthSimple ?_ (h₄.small hs) (h₄.type.trans ht)
            have htalk : Conversation cl.consumed cl.history .auth (some .usernamePw) :=
              hst ▸ hm ▸ h
            have hnext := Conversation.credentials htalk hv hulen hplen
            show Conversation cl₄.consumed (cl₄.history ++ [.auth u p]) cl₄.state cl₄.method
            rw [h₄.consumed, h₄.history, h₄.state, h₄.method, hst, hm]
            simpa using hnext
      · -- another version is refused
        obtain ⟨hv₁, hv₂⟩ := not_or.mp hv
        have hlen : (cl.unread.take 2).length ≤ (a.array .header 2).length := by simp
        have hb : byteAt (cl.unread.take 2 ++ (a.array .header 2).drop (cl.unread.take 2).length) 0 = v := by
          rw [hu]
          rfl
        have hnormal : ¬ (2 ≠ 0 ∧ cl.unread = []) := fun h => by simp [hu] at h
        rw [readChars_eq _ _ hlen, if_neg hnormal, ok_bind]
        dsimp only
        rw [if_neg hyes, if_pos (by rw [hb]; exact ⟨hv₁, hv₂⟩)]
        exact h.error hs ht (grows_reads (by decide)) (by decide)

/-- Whatever is read in place of a token. -/
theorem Talk.token (h : cl.Talk) (hst : cl.state = .auth) (hm : cl.method = some .gssapi)
    (hs : cl.Small) (ht : cl.type = .socks) {cl' : PendingClient} (hg : Grows cl cl')
    (hst' : cl'.state = cl.state) (hm' : cl'.method = cl.method) (ret : Bool) :
    Handled (ret, cl') := by
  obtain ⟨bytes, hbytes⟩ := hg.consumed
  have htalk : Conversation cl.consumed cl.history .auth (some .gssapi) := hst ▸ hm ▸ h
  have hnext : cl'.Talk := by
    show Conversation cl'.consumed cl'.history cl'.state cl'.method
    rw [← hbytes, hg.history, hst', hm', hst, hm]
    exact Conversation.token bytes htalk
  exact ⟨hnext.told (hg.small hs), fun _ => hnext, hg.type.trans ht⟩

theorem readChars_grows {b : Buffer} {buf : List Octet} {count : ℕ} (hb : b.isField = false)
    (hle : count ≤ buf.length) : Total (cl.readChars a b buf count) fun r =>
      Grows cl r.2.2 ∧ r.2.2.state = cl.state ∧ r.2.2.method = cl.method := by
  rw [readChars_eq b buf ((List.length_take_le _ _).trans hle)]
  exact ⟨grows_reads fun hf => (by cases hb.symm.trans hf), rfl, rfl⟩

theorem Talk.gssapiHandleData (h : cl.Talk) (hst : cl.state = .auth)
    (hm : cl.method = some .gssapi) (hs : cl.Small) (ht : cl.type = .socks) :
    Total (cl.gssapiHandleData a) Handled := by
  unfold PendingClient.gssapiHandleData
  refine (readChars_grows rfl (by simp)).bind ?_
  rintro ⟨status, header, cl₁⟩ ⟨hg, hst₁, hm₁⟩
  dsimp only at hg hst₁ hm₁ ⊢
  split
  · exact h.token hst hm hs ht hg hst₁ hm₁ _
  split
  · exact h.token hst hm hs ht hg hst₁ hm₁ _
  refine (readChars_grows rfl (by simp)).bind ?_
  rintro ⟨status, token, cl₂⟩ ⟨hg₂, hst₂, hm₂⟩
  exact h.token hst hm hs ht (hg.trans hg₂) (hst₂.trans hst₁) (hm₂.trans hm₁) _

theorem Talk.handleMethods (h : cl.Talk) (hst : cl.state = .new) (hs : cl.Small)
    (ht : cl.type = .socks) (hw : FieldWhole (fun _ _ => True) cl.unread) :
    Total (cl.handleMethods a l) Handled := by
  have hno : (a.noData : GIOStatus) ≠ .normal := a.noData.2
  have hyes : ¬ (GIOStatus.normal ≠ .normal) := not_not.mpr rfl
  unfold PendingClient.handleMethods
  cases hu : cl.unread with
  | nil =>
      obtain ⟨cl₁, hread, hg⟩ := readChars_nothing (a := a) .header (a.array .header 2) Nat.one_ne_zero hu (by simp)
      rw [hread, ok_bind]
      dsimp only
      rw [if_pos hno]
      exact h.refused hs ht rfl hg
  | cons n bytes =>
      rw [hu] at hw
      obtain ⟨hn, hf⟩ := hw
      obtain ⟨cl₁, hread, h₁⟩ := readChars_all (a := a) .header (a.array .header 2)
        (show cl.unread = [n] ++ bytes from hu) (show _ = 1 from rfl) (by simp) (by simp)
      rw [hread, ok_bind]
      dsimp only
      rw [if_neg hyes, show byteAt ([n] ++ (a.array .header 2).drop 1) 0 = n from rfl]
      obtain ⟨cl₂, hread, hg⟩ | ⟨cl₂, ms, rest, hread, h₂, hlen, -⟩ :=
        readField (a := a) .methods (a.array .methods 0x100) (by simp) hn (h₁.unread ▸ hf)
      · rw [hread, ok_bind]
        dsimp only
        rw [if_pos hno]
        have hg' := h₁.grows.trans hg
        exact h.refused hs ht rfl ⟨hg'.history, hg'.consumed, hg'.small, hg'.type⟩
      rw [hread, ok_bind]
      dsimp only
      rw [if_neg hyes]
      have h₂ := h₁.trans h₂
      have hne := chooseMethod_ne_noauth (a := a) (l := l)
        ((ms ++ (a.array .methods 0x100).drop n).take (gint n).toNat)
      generalize chooseMethod a l _ = method at hne ⊢
      split
      · cases method with
        | none => exact h.refused hs ht rfl ⟨h₂.history, h₂.grows.consumed, h₂.small, h₂.type⟩
        | some m =>
            have htalk : Conversation cl.consumed cl.history .new cl.method := hst ▸ h
            have hm : m ≠ .noauth := fun h => hne (congrArg some h)
            have hhandles : m.handlesData = true := by
              cases m with
              | noauth => exact absurd rfl hm
              | gssapi => rfl
              | usernamePw => rfl
            have hnext : Conversation cl₂.consumed cl₂.history .auth (some m) := by
              rw [h₂.consumed, h₂.history]
              exact Conversation.methods htalk hlen hm
            dsimp only
            rw [hhandles]
            exact ⟨Talk.told hnext (h₂.small hs), fun _ => hnext, h₂.type.trans ht⟩
      · exact h.refused hs ht rfl ⟨h₂.history, h₂.grows.consumed, h₂.small, h₂.type⟩

/-- The callback for a connection goes on with the conversation, whatever it returns. -/
theorem Talk.connect {cl' : PendingClient} {c : Callback}
    (h : Talk { cl' with history := cl'.history ++ [c] }) (hs : cl'.Small)
    (ht : cl'.type = .socks) (ret : Bool) :
    Handled (ret, { cl' with history := cl'.history ++ [c] }) :=
  ⟨h.told hs, fun _ => h, ht⟩

theorem Talk.handleFqdn (h : cl.Talk) (hst : cl.state = .normal) (hs : cl.Small)
    (ht : cl.type = .socks) {cl₁ : PendingClient} {r : Octet} {bytes header : List Octet}
    (h₁ : After cl cl₁ [SOCKS_VERSION, CMD_CONNECT, r, ATYP_FQDN] bytes)
    (hlen : header.length = 4) {n p₁ p₂ : Octet} {host rest : List Octet}
    (hb : bytes = n :: host ++ p₁ :: p₂ :: rest) (hn : n.val < 128) (hhost : host.length = n.val)
    (h0 : 0 ∉ host) : Total (cl₁.handleFqdn a l header) Handled := by
  unfold PendingClient.handleFqdn
  obtain ⟨cl₂, hread, h₂⟩ := readChars_all (a := a) .header header
    (show cl₁.unread = [n] ++ (host ++ p₁ :: p₂ :: rest) from h₁.unread.trans hb)
    (show _ = 1 from rfl) (by omega) nofun
  rw [hread, ok_bind]
  dsimp only
  rw [show byteAt ([n] ++ header.drop 1) 0 = n from rfl, gsize_of_lt hn]
  obtain ⟨cl₃, hread, h₃⟩ := readChars_all (a := a) .hostname (a.array .hostname 0x100) h₂.unread
    hhost (by simp) fun _ => by omega
  rw [hread, ok_bind]
  dsimp only
  obtain ⟨cl₄, hread, h₄⟩ := readChars_all (a := a) .header ([n] ++ header.drop 1)
    (show cl₃.unread = [p₁, p₂] ++ rest from h₃.unread) (show _ = 2 from rfl) (by simp; omega) nofun
  rw [hread, ok_bind]
  dsimp only
  have hafter := ((h₁.trans h₂).trans h₃).trans h₄
  split
  · rw [cString_set hhost (by simp) h0]
    refine Talk.connect ?_ (hafter.small hs) (hafter.type.trans ht) _
    have htalk : Conversation cl.consumed cl.history .normal cl.method := hst ▸ h
    have hnext := Conversation.fqdn r p₁ p₂ htalk hhost
    show Conversation cl₄.consumed (cl₄.history ++ [_]) cl₄.state cl₄.method
    rw [hafter.consumed, hafter.history, hafter.state, hafter.method, hst,
      show ntohs ([p₁, p₂] ++ ([n] ++ header.drop 1).drop 2) = 256 * p₁.val + p₂.val from rfl]
    simpa using hnext
  · exact h.error hs ht hafter.grows (by decide)

/-- A request whose first four bytes are there. -/
theorem Talk.handleConnect_four (h : cl.Talk) (hst : cl.state = .normal) (hs : cl.Small)
    (ht : cl.type = .socks) {r t : Octet} {bytes : List Octet}
    (hu : cl.unread = [SOCKS_VERSION, CMD_CONNECT, r, t] ++ bytes)
    (hw : t = ATYP_FQDN → ∃ n host p₁ p₂ rest, bytes = n :: host ++ p₁ :: p₂ :: rest ∧
      n.val < 128 ∧ host.length = n.val ∧ 0 ∉ host) :
    Total (cl.handleConnect a l) Handled := by
  have htalk : Conversation cl.consumed cl.history .normal cl.method := hst ▸ h
  obtain ⟨cl₁, hread, h₁⟩ := readChars_all (a := a) .header (a.array .header 4) hu
    (show _ = 4 from rfl) (by simp) nofun
  unfold PendingClient.handleConnect
  rw [hread, ok_bind]
  dsimp only
  rw [if_neg (not_not.mpr rfl), if_neg fun hv => hv rfl, if_neg fun hc => hc rfl,
    show byteAt ([SOCKS_VERSION, CMD_CONNECT, r, t] ++ (a.array .header 4).drop 4) 3 = t from rfl]
  split
  · next ht4 =>
    subst ht4
    split
    · refine Talk.connect ?_ (h₁.small hs) (h₁.type.trans ht) _
      show Conversation cl₁.consumed (cl₁.history ++ [_]) cl₁.state cl₁.method
      rw [h₁.consumed, h₁.history, h₁.state, h₁.method, hst]
      exact Conversation.ipv4 r htalk
    · exact h.error hs ht h₁.grows (by decide)
  split
  · next ht6 =>
    subst ht6
    split
    · refine Talk.connect ?_ (h₁.small hs) (h₁.type.trans ht) _
      show Conversation cl₁.consumed (cl₁.history ++ [_]) cl₁.state cl₁.method
      rw [h₁.consumed, h₁.history, h₁.state, h₁.method, hst]
      exact Conversation.ipv6 r htalk
    · exact h.error hs ht h₁.grows (by decide)
  split
  · next htf =>
    subst htf
    obtain ⟨n, host, p₁, p₂, rest, hb, hn, hhost, h0⟩ := hw rfl
    exact h.handleFqdn hst hs ht h₁ (by simp) hb hn hhost h0
  · exact h.error hs ht h₁.grows (by decide)

theorem Talk.handleConnect (h : cl.Talk) (hst : cl.state = .normal) (hs : cl.Small)
    (ht : cl.type = .socks) (hw : RequestWhole cl.unread) :
    Total (cl.handleConnect a l) Handled := by
  have hg : Grows cl (cl.reads .header 4) := grows_reads nofun
  have hlen : (cl.unread.take 4).length ≤ (a.array .header 4).length := by simp
  have hread := readChars_eq (a := a) .header (a.array .header 4) hlen
  -- another version or another command is refused, whatever else there is
  have hversion : ∀ {v : Octet} {rest : List Octet}, cl.unread = v :: rest → v ≠ SOCKS_VERSION →
      Total (cl.handleConnect a l) Handled := by
    intro v rest hu hv
    unfold PendingClient.handleConnect
    rw [hread, if_neg (by simp [hu]), ok_bind]
    dsimp only
    rw [if_neg (not_not.mpr rfl), if_pos (by rw [hu]; exact hv)]
    exact h.error hs ht hg (by decide)
  have hcommand : ∀ {c : Octet} {rest : List Octet}, cl.unread = SOCKS_VERSION :: c :: rest →
      c ≠ CMD_CONNECT → Total (cl.handleConnect a l) Handled := by
    intro c rest hu hc
    unfold PendingClient.handleConnect
    rw [hread, if_neg (by simp [hu]), ok_bind]
    dsimp only
    rw [if_neg (not_not.mpr rfl), if_neg (by rw [hu]; exact fun hv => hv rfl),
      if_pos (by rw [hu]; exact hc)]
    exact h.error hs ht hg (by decide)
  match hu : cl.unread, hw with
  | [], _ =>
      unfold PendingClient.handleConnect
      rw [hread, if_pos (by simp [hu]), ok_bind]
      dsimp only
      rw [if_pos a.noData.2]
      exact h.refused hs ht rfl hg
  | [v], hw => exact hversion hu hw
  | [v, c], hw =>
      by_cases hv : v = SOCKS_VERSION
      · subst hv
        exact hcommand hu (hw rfl)
      · exact hversion hu hv
  | [v, c, _], hw =>
      by_cases hv : v = SOCKS_VERSION
      · subst hv
        exact hcommand hu (hw rfl)
      · exact hversion hu hv
  | v :: c :: r :: t :: bytes, hw =>
      by_cases hv : v = SOCKS_VERSION
      · subst hv
        by_cases hc : c = CMD_CONNECT
        · subst hc
          exact h.handleConnect_four hst hs ht hu (hw rfl rfl)
        · exact hcommand hu hc
      · exact hversion hu hv

theorem Talk.handleClientDetect (h : cl.Talk) (hst : cl.state = .unknown) (hs : cl.Small)
    (hw : cl.unread ≠ [] ∨ a.noData.1 ≠ .again) :
    Total (cl.handleClientDetect a) fun r => r.2.Told ∧
      (r.1 = true → r.2.type = .regular ∨ r.2.Talk ∧ r.2.type = .socks) := by
  unfold PendingClient.handleClientDetect
  cases hu : cl.unread with
  | nil =>
      obtain ⟨cl₁, hread, hg⟩ := readChars_nothing (a := a) .header (a.array .header 2)
        Nat.one_ne_zero hu nofun
      rw [hread, ok_bind]
      dsimp only
      rw [if_pos ⟨a.noData.2, hw.resolve_left fun hne => hne hu⟩]
      exact ⟨h.grown hs hg, nofun⟩
  | cons v bytes =>
      obtain ⟨cl₁, hread, h₁⟩ := readChars_all (a := a) .header (a.array .header 2)
        (show cl.unread = [v] ++ bytes from hu) (show _ = 1 from rfl) (by simp) nofun
      rw [hread, ok_bind]
      dsimp only
      rw [if_neg fun hb => hb.1 rfl, show byteAt ([v] ++ (a.array .header 2).drop 1) 0 = v from rfl]
      split
      · next hv =>
        subst hv
        have htalk : Conversation cl.consumed cl.history .unknown cl.method := hst ▸ h
        have hnext : Conversation cl₁.consumed cl₁.history .new cl₁.method := by
          rw [h₁.consumed, h₁.history, h₁.method]
          exact Conversation.version htalk
        exact ⟨Talk.told hnext (h₁.small hs), fun _ => .inr ⟨hnext, rfl⟩⟩
      · exact ⟨⟨(h.grown hs h₁.grows).part, h₁.small hs⟩, fun _ => .inl rfl⟩

/-! ### Runs -/

/-- As long as the client is handled its bytes and callbacks are a conversation. -/
structure Exact (cl : PendingClient) : Prop where
  told : cl.Told
  talk : cl.killed = false → cl.type ≠ .regular → cl.Talk
  unknown : cl.killed = false → cl.type = .unknown → cl.state = .unknown

theorem new_exact : listenerNewPendingClient.Exact where
  told := ⟨⟨[], .unknown, none, List.prefix_rfl, .start⟩, nofun⟩
  talk := fun _ _ => .start
  unknown := fun _ _ => rfl

/-- A client is killed when handling its data fails. -/
theorem Handled.exact {r : Bool × PendingClient} (h : Handled r) :
    Exact (if r.1 then r.2 else { r.2 with killed := true }) := by
  cases hr : r.1 with
  | true =>
      exact ⟨h.told, fun _ _ => h.talk hr, fun _ hu => by cases h.type.symm.trans hu⟩
  | false => exact ⟨⟨h.told.part, h.told.small⟩, nofun, nofun⟩

theorem Talk.handleClientSocksData (h : cl.Talk) (hs : cl.Small) (ht : cl.type = .socks)
    (hw : cl.Whole (.receive a)) :
    Total (cl.handleClientSocksData a l) fun r =>
      Exact (if r.1 then r.2 else { r.2 with killed := true }) := by
  unfold PendingClient.handleClientSocksData
  unfold Whole at hw
  dsimp only at hw
  rw [ht] at hw
  cases hst : cl.state with
  | unknown =>
      exact ⟨h.told hs, fun _ _ => h, fun _ hu => by cases ht.symm.trans hu⟩
  | new =>
      rw [hst] at hw
      exact (h.handleMethods hst hs ht hw).imp fun r hr => hr.exact
  | auth =>
      rw [hst] at hw
      rcases Conversation.auth_method h hst with hm | hm
      · rw [hm] at hw ⊢
        exact (h.passHandleData hst hm hs ht hw).imp fun r hr => hr.exact
      · rw [hm]
        exact (h.gssapiHandleData hst hm hs ht).imp fun r hr => hr.exact
  | normal =>
      rw [hst] at hw
      exact (h.handleConnect hst hs ht hw).imp fun r hr => hr.exact

theorem Exact.step (h : cl.Exact) {e : Event} (ha : cl.Admits e) (hw : cl.Whole e) :
    Total (cl.step l e) Exact := by
  have htalk := h.talk ha.1 ha.2.1
  cases e with
  | deliver bytes => exact ⟨⟨h.told.part, h.told.small⟩, h.talk, h.unknown⟩
  | receive a =>
      unfold PendingClient.step handleClientReceive
      dsimp only
      cases ht : cl.type with
      | unknown =>
          have hw' : cl.unread ≠ [] ∨ a.noData.1 ≠ .again := by
            unfold Whole at hw
            dsimp only at hw
            rwa [ht] at hw
          refine (htalk.handleClientDetect (h.unknown ha.1 ht) h.told.small hw').bind ?_
          rintro ⟨ret, cl'⟩ ⟨htold, hnext⟩
          cases ret with
          | true =>
              rcases hnext rfl with hr | ⟨htalk', ht'⟩
              · exact ⟨htold, fun _ hne => absurd hr hne, fun _ hu => by cases hr.symm.trans hu⟩
              · exact ⟨htold, fun _ _ => htalk', fun _ hu => by cases ht'.symm.trans hu⟩
          | false => exact ⟨⟨htold.part, htold.small⟩, nofun, nofun⟩
      | regular => exact absurd ht ha.2.1
      | socks => exact (htalk.handleClientSocksData h.told.small ht hw).bind fun r hr => hr
  | known u p accepted writes =>
      have hm : Callback.auth u p ∈ cl.history := ha.2.2
      have hnext := htalk.onSocksPassAccepted hm accepted writes
      obtain ⟨ht, hr, hk⟩ := onSocksPassAccepted_frame cl u p accepted writes
      refine ⟨hnext.told ?_, fun _ _ => hnext, fun _ hu => ?_⟩
      · show ∀ q ∈ PendingClient.requests _, _
        rw [hr]
        exact h.told.small
      · have hst := h.unknown ha.1 (ht ▸ hu)
        rw [Conversation.unknown_history htalk hst] at hm
        cases hm
  | hangup => exact ⟨⟨h.told.part, h.told.small⟩, nofun, nofun⟩

/-- **Fields are read as they are announced.** In every run in which messages are whole when they
are read: the bytes that were read are messages and the callbacks were called with exactly what
they announce, as long as the client is handled, and otherwise this holds of the first of the
bytes; never more than 255 bytes are asked for into an array of 256; and whatever happens next
completes. -/
theorem reachable_exact
    (hr : Reach (step l) (fun cl e => cl.Admits e ∧ cl.Whole e) listenerNewPendingClient cl) :
    (cl.killed = false → cl.type ≠ .regular →
      Conversation cl.consumed cl.history cl.state cl.method) ∧
    (∃ c st m, c <+: cl.consumed ∧ Conversation c cl.history st m) ∧
    (∀ q ∈ cl.requests, q.1.isField = true → q.2 ≤ 255) ∧
    ∀ e, cl.Admits e → cl.Whole e → ∃ cl', cl.step l e = .ok cl' := by
  have h : cl.Exact := hr.invariant new_exact fun cl e hcl he =>
    (hcl.step he.1 he.2).mono (fun _ h => h) fun _ h => h.elim
  refine ⟨h.talk, h.told.part, h.told.small, fun e ha hw => ?_⟩
  obtain ⟨cl', hstep, -⟩ := (h.step (l := l) ha hw).exists_ok
  exact ⟨cl', hstep⟩

/-- The version, the methods, a name and a password, each whole when it is read. -/
theorem reachable_exact_accepted : ∃ cl,
    Reach (step ⟨false, false, false, true⟩) (fun cl e => cl.Admits e ∧ cl.Whole e)
      listenerNewPendingClient cl ∧
    cl.history = [.auth [97] [98], .verdict [97] [98] true] ∧
    Conversation cl.consumed cl.history cl.state cl.method := by
  let a : Option Bool → Answers := fun verdict =>
    ⟨⟨.again, nofun⟩, fun _ _ => 0, true, verdict, false, false, true⟩
  let s₁ : PendingClient := { listenerNewPendingClient with unread := [5, 1, 2, 1, 1, 97, 1, 98] }
  let s₂ : PendingClient := { s₁ with
    type := .socks, state := .new, unread := [1, 2, 1, 1, 97, 1, 98], consumed := [5]
    requests := [(.header, 1)] }
  let s₃ : PendingClient := { s₂ with
    method := some .usernamePw, state := .auth, unread := [1, 1, 97, 1, 98], consumed := [5, 1, 2]
    requests := [(.header, 1), (.header, 1), (.methods, 1)], sent := [5, 2] }
  have w₁ : s₁.Whole (.receive (a none)) := .inl (List.cons_ne_nil _ _)
  have w₂ : s₂.Whole (.receive (a none)) := ⟨by decide, .inr ⟨[2], _, rfl, rfl, trivial⟩⟩
  have w₃ : s₃.Whole (.receive (a (some true))) := fun _ => ⟨List.cons_ne_nil _ _, by decide,
    .inr ⟨[97], [1, 98], rfl, rfl, by decide, .inr ⟨[98], [], rfl, rfl, by decide, by decide⟩⟩⟩
  have h₁ : Reach (step ⟨false, false, false, true⟩) (fun cl e => cl.Admits e ∧ cl.Whole e)
      listenerNewPendingClient s₁ := .step .refl ⟨⟨rfl, nofun, trivial⟩, trivial⟩ (i := .deliver _) rfl
  have h₂ : Reach (step ⟨false, false, false, true⟩) (fun cl e => cl.Admits e ∧ cl.Whole e)
      listenerNewPendingClient s₂ := h₁.step ⟨⟨rfl, nofun, trivial⟩, w₁⟩ rfl
  have h₃ : Reach (step ⟨false, false, false, true⟩) (fun cl e => cl.Admits e ∧ cl.Whole e)
      listenerNewPendingClient s₃ := h₂.step ⟨⟨rfl, nofun, trivial⟩, w₂⟩ rfl
  have h₄ := h₃.step ⟨⟨rfl, nofun, trivial⟩, w₃⟩ rfl
  exact ⟨_, h₄, by decide +kernel, (reachable_exact h₄).1 rfl nofun⟩

/-- A password of 100 bytes is announced and one of them is there: the others are whatever the
array holds. -/
theorem password_not_announced :
    ¬ ∀ cl, Reach (step ⟨false, false, false, true⟩) Admits listenerNewPendingClient cl →
      ∃ c st m, c <+: cl.consumed ∧ Conversation c cl.history st m := by
  intro h
  let a : Answers := ⟨⟨.again, nofun⟩, fun _ _ => 120, true, none, false, false, true⟩
  have hrun : (admittedRun (step ⟨false, false, false, true⟩) Admits listenerNewPendingClient
      [.deliver [5, 1, 2], .receive a, .receive a, .deliver [1, 0, 100, 98], .receive a]).map
      (fun cl => (cl.history, cl.consumed)) =
      some ([.auth [] (98 :: List.replicate 99 120)], [5, 1, 2, 1, 0, 100, 98]) := by decide +kernel
  obtain ⟨cl, hcl, hh⟩ := Option.map_eq_some_iff.mp hrun
  obtain ⟨hhist, hcons⟩ := Prod.mk.inj hh
  obtain ⟨c, st, m, hc, htalk⟩ := h cl (Reach.refl.of_admittedRun hcl)
  have hlen := htalk.auth_length (hhist ▸ List.mem_singleton_self _)
  have := hc.length_le
  rw [hcons] at this
  simp at hlen this
  omega

end PendingClient

end Ctrlproxy.Listener
