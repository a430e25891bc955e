import Ctrlproxy.Base.Decimal
import Ctrlproxy.Base.Isupport
import Ctrlproxy.Lib.Outcome

/-!
# Base — announcing what the server announced

`network_info_string` prints an info as 005 tokens again.  The keys are those of `network_info_parse`,
one for each field, and what is printed for a key is parsed back into its field: the others are left
(`applyInfoKey_frame`), and no two keys that are printed share one.

An unknown mapping is announced as the one it is compared by.  Two values are lost: `CHANTYPES` that
there are none of, and the types of an `EXTBAN` that has only a prefix (`networkInfoString_parse`).
-/

namespace Ctrlproxy
open Outcome

/-! ### Printing -/

/-- The strings with a separator between them. -/
def joinWith (c : Byte) : List Str → Str
  | [] => []
  | [s] => s
  | s :: list => s ++ c :: joinWith c list

/-- `list_make_string`. -/
def listMakeString (list : List Str) : Str := joinWith (chr ' ') list

/-- `g_strjoinv`. -/
def gStrjoinv (c : Byte) (list : List Str) : Str := joinWith c list

/-- A token with a value. -/
def infoToken (key val : Str) : Str := key ++ chr '=' :: val

def casemapName : Casemapping → Str
  | .unknown | .rfc1459 => str "rfc1459"
  | .strictRfc1459 => str "strict-rfc1459"
  | .ascii => str "ascii"

/-- The value of `ELIST`. -/
def elistLetters (i : NetworkInfo) : Str :=
  (if i.flag .elistMaskSearch then str "M" else []) ++
  (if i.flag .elistInverseMaskSearch then str "N" else []) ++
  (if i.flag .elistUsercountSearch then str "U" else []) ++
  (if i.flag .elistCreationTimeSearch then str "C" else []) ++
  (if i.flag .elistTopicSearch then str "T" else [])

/-- What is printed for a key, if anything is. -/
def infoTokens (i : NetworkInfo) (key : Str) : InfoKey → List Str
  | .casemapping => [infoToken key (casemapName i.casemapping)]
  | .text t => match i.text t with
      | none => []
      | some v => [infoToken key v]
  | .num k => if i.num k = 0 then [] else [infoToken key (decimalInt (i.num k))]
  | .flag f => if i.flag f then [key] else []
  | .keylen => if i.num .keylen = 0 then [] else [infoToken key (decimalInt (i.num .keylen))]
  | .silence =>
      if i.flag .silence then
        if i.num .silenceLimit = 0 then [key] else [infoToken key (decimalInt (i.num .silenceLimit))]
      else []
  | .chanmodes => match i.chanmodes with
      | none => []
      | some groups => [infoToken key (gStrjoinv (chr ',') groups)]
  | .mode m _ => match i.mode m with
      | none => []
      | some b => [infoToken key [b]]
  | .elist => if elistLetters i = [] then [] else [infoToken key (elistLetters i)]
  | .extban => match i.extbanPrefix with
      | none => []
      | some p => [infoToken key (p ++ chr ',' :: i.extbanSupported.getD (str "(null)"))]
  | .prefixes => [infoToken key i.prefixes]

/-- The keys in the order `network_info_string` prints them. -/
def infoOrder : List (Str × InfoKey) :=
  [(str "NETWORK", .text .name), (str "CASEMAPPING", .casemapping),
   (str "FNC", .flag .forcedNickChanges), (str "MAP", .flag .map), (str "SSL", .flag .ssl),
   (str "CHARSET", .text .charset), (str "NICKLEN", .num .nicklen), (str "USERLEN", .num .userlen),
   (str "WATCH", .num .watch), (str "VBANLIST", .flag .vbanlist),
   (str "OVERRIDE", .flag .operoverride), (str "HOSTLEN", .num .hostlen),
   (str "CHANNELLEN", .num .channellen), (str "AWAYLEN", .num .awaylen),
   (str "KICKLEN", .num .kicklen), (str "TOPICLEN", .num .topiclen),
   (str "MAXCHANNELS", .num .maxchannels), (str "MAXTARGETS", .num .maxtargets),
   (str "MAXBANS", .num .maxbans), (str "MODES", .num .maxmodes), (str "MAXPARA", .num .maxpara),
   (str "WALLCHOPS", .flag .wallchops), (str "WALLVOICES", .flag .wallvoices),
   (str "RFC2812", .flag .rfc2812), (str "PENALTY", .flag .penalty), (str "REMOVE", .flag .remove),
   (str "SAFELIST", .flag .safelist), (str "USERIP", .flag .userip), (str "CAPAB", .flag .capab),
   (str "HCN", .flag .hcn), (str "CPRIVMSG", .flag .cprivmsg), (str "CNOTICE", .flag .cnotice),
   (str "KNOCK", .flag .knock), (str "VCHANNELS", .flag .vchannels), (str "WHOX", .flag .whox),
   (str "CALLERID", .flag .callerid), (str "ACCEPT", .flag .accept),
   (str "ESILENCE", .flag .esilence), (str "UHNAMES", .flag .uhnames), (str "KEYLEN", .keylen),
   (str "SILENCE", .silence), (str "CHANTYPES", .text .chantypes), (str "IRCD", .text .ircd),
   (str "CHANMODES", .chanmodes), (str "CHANLIMIT", .text .chanlimit),
   (str "NAMESX", .flag .namesx), (str "SECURELIST", .flag .securelist),
   (str "EXCEPTS", .mode .excepts (chr 'e')), (str "STATUSMSG", .text .statusmsg),
   (str "INVEX", .mode .invex (chr 'I')), (str "ELIST", .elist), (str "EXTBAN", .extban),
   (str "DEAF", .mode .deaf (chr 'D')), (str "MAXLIST", .text .maxlist),
   (str "IDCHAN", .text .idchan), (str "PREFIX", .prefixes)]

/-- `network_info_string`. -/
def networkInfoString (i : NetworkInfo) : Str :=
  listMakeString (infoOrder.flatMap fun e => infoTokens i e.1 e.2)

/-! ### Fields -/

/-- What a token can change. -/
inductive InfoField where
  | casemapping
  | text (t : InfoText)
  | num (k : InfoNum)
  | flag (f : InfoFlag)
  | mode (m : InfoMode)
  | chanmodes
  | extban
  | prefixes
  deriving DecidableEq

/-- What the tokens of a key change. -/
def InfoKey.fields : InfoKey → List InfoField
  | .casemapping => [.casemapping]
  | .text t => [.text t]
  | .num k => [.num k]
  | .flag f => [.flag f]
  | .keylen => [.num .keylen]
  | .silence => [.flag .silence, .num .silenceLimit]
  | .chanmodes => [.chanmodes]
  | .mode m _ => [.mode m]
  | .elist => [.flag .elistMaskSearch, .flag .elistInverseMaskSearch, .flag .elistUsercountSearch,
      .flag .elistCreationTimeSearch, .flag .elistTopicSearch]
  | .extban => [.extban]
  | .prefixes => [.prefixes]

/-- The type of a field. -/
abbrev InfoField.Value : InfoField → Type
  | .casemapping => Casemapping
  | .text _ => Option Str
  | .num _ => ℤ
  | .flag _ => Bool
  | .mode _ => Option Byte
  | .chanmodes => Option (List Str)
  | .extban => Option Str × Option Str
  | .prefixes => Str

/-- What an info has in a field. -/
def NetworkInfo.value (n : NetworkInfo) : (f : InfoField) → f.Value
  | .casemapping => n.casemapping
  | .text t => n.text t
  | .num k => n.num k
  | .flag f => n.flag f
  | .mode m => n.mode m
  | .chanmodes => n.chanmodes
  | .extban => (n.extbanPrefix, n.extbanSupported)
  | .prefixes => n.prefixes

/-- No 004 line was seen. -/
structure Unwelcomed (n : NetworkInfo) : Prop where
  server : n.server = none
  userModes : n.supportedUserModes = none
  channelModes : n.supportedChannelModes = none

section
variable {n n' i : NetworkInfo} {k : InfoKey} {f : InfoField} {v : Option Str}

/-- Infos that agree on all fields are the same. -/
theorem eq_of_value (hn : Unwelcomed n) (hn' : Unwelcomed n') (h : ∀ f, n.value f = n'.value f) :
    n = n' := by
  obtain ⟨server, um, cm, cmap, px, chanmodes, ep, es, text, num, flag, mode⟩ := n
  obtain ⟨server', um', cm', cmap', px', chanmodes', ep', es', text', num', flag', mode'⟩ := n'
  obtain ⟨rfl, rfl, rfl⟩ := hn
  obtain ⟨rfl, rfl, rfl⟩ := hn'
  have hcasemapping : cmap = cmap' := h .casemapping
  have hprefixes : px = px' := h .prefixes
  have hchanmodes : chanmodes = chanmodes' := h .chanmodes
  have hextban : (ep, es) = (ep', es') := h .extban
  have htext : text = text' := funext fun t => h (.text t)
  have hnum : num = num' := funext fun k => h (.num k)
  have hflag : flag = flag' := funext fun f => h (.flag f)
  have hmode : mode = mode' := funext fun m => h (.mode m)
  rw [hcasemapping, hprefixes, hchanmodes, (Prod.mk.inj hextban).1,
    (Prod.mk.inj hextban).2, htext, hnum, hflag, hmode]

/-- The flags of an `ELIST` value are set. -/
theorem foldl_elist (n : NetworkInfo) (v : Str) :
    v.foldl (fun n b => match elistFlag b with
      | some f => n.setFlag f
      | none => n) n =
    { n with flag := fun f => n.flag f || v.any fun b => elistFlag b = some f } := by
  induction v generalizing n with
  | nil => simp
  | cons b v ih =>
      rw [List.foldl_cons, ih]
      cases hb : elistFlag b with
      | none => simp [hb]
      | some g =>
          simp only [NetworkInfo.setFlag, List.any_cons, hb, Option.some.injEq]
          congr 1
          funext f
          by_cases hfg : f = g
          · simp [hfg]
          · simp [hfg, Ne.symm hfg]

theorem applyInfoKey_elist (n : NetworkInfo) (v : Str) : applyInfoKey n (some v) .elist =
    .ok { n with flag := fun f => n.flag f || v.any fun b => elistFlag b = some f } :=
  congrArg Except.ok (foldl_elist n v)

/-- What a token does when nothing fails. -/
inductive Applied (n : NetworkInfo) : Option Str → InfoKey → NetworkInfo → Prop where
  | casemapping {v : Option Str} (m : Casemapping) : Applied n v .casemapping { n with casemapping := m }
  | text {v : Option Str} (t : InfoText) : Applied n v (.text t) (n.setText t v)
  | num {v : Option Str} {x : ℤ} (k : InfoNum) (hx : gAsciiStringToSigned v = some x) :
      Applied n v (.num k) (n.setNum k x)
  | badNum {v : Option Str} (k : InfoNum) (hx : gAsciiStringToSigned v = none) : Applied n v (.num k) n
  | flag {v : Option Str} (f : InfoFlag) : Applied n v (.flag f) (n.setFlag f)
  | keylen (x : Str) : Applied n (some x) .keylen (n.setNum .keylen (atoi x))
  | silence : Applied n none .silence (n.setFlag .silence)
  | silenceLimit (x : Str) :
      Applied n (some x) .silence ((n.setNum .silenceLimit (atoi x)).setFlag .silence)
  | defaultChanmodes : Applied n none .chanmodes { n with chanmodes := none }
  | chanmodes (x : Str) {supported : Option Str}
      (hs : n.supportedChannelModes = none → supported = none) : Applied n (some x) .chanmodes
        { n with chanmodes := some (gStrsplitN x (chr ',') 4), supportedChannelModes := supported }
  | defaultMode (m : InfoMode) (d : Byte) : Applied n none (.mode m d) (n.setMode m (some d))
  | mode {x : Str} (m : InfoMode) (d : Byte) (hx : x.length ≤ 1) :
      Applied n (some x) (.mode m d) (n.setMode m x.head?)
  | longMode {x : Str} (m : InfoMode) (d : Byte) (hx : 1 < x.length) : Applied n (some x) (.mode m d) n
  | elist (x : Str) : Applied n (some x) .elist
      { n with flag := fun f => n.flag f || x.any fun b => elistFlag b = some f }
  | defaultExtban : Applied n none .extban
      { n with extbanPrefix := some (str "~"), extbanSupported := some (str "cqr") }
  | extban {x : Str} (hx : x ≠ []) : Applied n (some x) .extban
      { n with
        extbanPrefix := (gStrsplitN x (chr ',') 2)[0]?
        extbanSupported := (gStrsplitN x (chr ',') 2)[1]? }
  | prefixes {x : Str} (hx : x = [] ∨ x.head? = some (chr '(') ∧ chr ')' ∈ x) :
      Applied n (some x) .prefixes { n with prefixes := x }
  | badPrefixes {x : Str} (hx : x ≠ [] ∧ (x.head? ≠ some (chr '(') ∨ chr ')' ∉ x)) :
      Applied n (some x) .prefixes n

theorem applyInfoKey_cases (h : applyInfoKey n v k = .ok n') : Applied n v k n' := by
  cases k with
  | casemapping =>
      cases h
      exact .casemapping _
  | text t =>
      cases h
      exact .text t
  | num k =>
      simp only [applyInfoKey] at h
      split at h
      · next x hx =>
        cases h
        exact .num k hx
      · next hx =>
        cases h
        exact .badNum k hx
  | flag f =>
      cases h
      exact .flag f
  | keylen =>
      cases v with
      | none => cases h
      | some x =>
          cases h
          exact .keylen x
  | silence =>
      cases v with
      | none =>
          cases h
          exact .silence
      | some x =>
          cases h
          exact .silenceLimit x
  | chanmodes =>
      cases v with
      | none =>
          cases h
          exact .defaultChanmodes
      | some x =>
          simp only [applyInfoKey] at h
          cases h
          split
          · -- the characters that a 004 line left out are added to those it listed
            unfold checkChanmodesInconsistency
            split
            · exact .chanmodes x id
            · next m hm => exact .chanmodes x fun hnone => absurd (hm.symm.trans hnone) (Option.some_ne_none m)
          · exact .chanmodes x id
  | mode m d =>
      cases v with
      | none =>
          cases h
          exact .defaultMode m d
      | some x =>
          cases x with
          | nil =>
              cases h
              exact .mode m d (Nat.zero_le 1)
          | cons b x =>
              cases x with
              | nil =>
                  cases h
                  exact .mode m d le_rfl
              | cons b' x =>
                  cases h
                  exact .longMode m d (by simp)
  | elist =>
      cases v with
      | none => cases h
      | some x =>
          rw [applyInfoKey_elist] at h
          cases h
          exact .elist x
  | extban =>
      simp only [applyInfoKey] at h
      split at h
      · cases h
        exact .defaultExtban
      · split at h
        · cases h
        · next hne =>
          cases h
          exact .extban fun hx => hne (by rw [hx]; rfl)
  | prefixes =>
      cases v with
      | none => cases h
      | some x =>
          simp only [applyInfoKey] at h
          split at h
          · next hbad =>
            cases h
            exact .badPrefixes hbad
          · next hbad =>
            cases h
            rw [not_and_or, not_or, not_not, not_not, not_not] at hbad
            exact .prefixes hbad

/-- A token changes the fields of its key only. -/
theorem applyInfoKey_frame (h : applyInfoKey n v k = .ok n') (hf : f ∉ k.fields) :
    n'.value f = n.value f := by
  cases applyInfoKey_cases h with
  | badNum | longMode | badPrefixes => rfl
  | casemapping | defaultChanmodes | chanmodes | defaultExtban | extban | prefixes =>
      cases f <;> first | exact absurd List.mem_cons_self hf | rfl
  | text t =>
      cases f with
      | text t' => exact if_neg (by simpa [InfoKey.fields] using hf)
      | _ => rfl
  | num | keylen =>
      cases f with
      | num k' => exact if_neg (by simpa [InfoKey.fields] using hf)
      | _ => rfl
  | flag | silence =>
      cases f with
      | flag g' => exact if_neg (by simpa [InfoKey.fields] using hf)
      | _ => rfl
  | silenceLimit x =>
      cases f with
      | flag g' => exact if_neg (by simpa [InfoKey.fields] using hf)
      | num k' => exact if_neg (by simpa [InfoKey.fields] using hf)
      | _ => rfl
  | defaultMode | mode =>
      cases f with
      | mode m' => exact if_neg (by simpa [InfoKey.fields] using hf)
      | _ => rfl
  | elist x =>
      cases f with
      | flag g =>
          have hno : ∀ b ∈ x, elistFlag b ≠ some g := by
            rintro b - hb
            apply hf
            unfold elistFlag at hb
            split_ifs at hb <;> cases hb <;> decide
          show (n.flag g || x.any fun b => elistFlag b = some g) = n.flag g
          rw [List.any_eq_false.mpr fun b hb => by simp [hno b hb], Bool.or_false]
      | _ => rfl

/-- No token is a 004 line. -/
theorem applyInfoKey_unwelcomed (h : applyInfoKey n v k = .ok n') (hn : Unwelcomed n) :
    Unwelcomed n' := by
  obtain ⟨hserver, huser, hchan⟩ := hn
  cases applyInfoKey_cases h with
  | chanmodes x hs => exact ⟨hserver, huser, hs hchan⟩
  | _ => exact ⟨hserver, huser, hchan⟩

end

/-! ### Runs of tokens -/

/-- The tokens are parsed one after the other. -/
def networkInfoParseAll (n : NetworkInfo) (tokens : List Str) : Except Fault NetworkInfo :=
  tokens.foldlM networkInfoParse n

/-- The value of the last token of a key, if there is one. -/
def lastValue (k : InfoKey) (tokens : List Str) : Option (Option Str) :=
  ((tokens.filter fun w => tokenKey w = some k).getLast?).map tokenValue

section
variable {n n' i : NetworkInfo} {k : InfoKey} {f : InfoField} {w : Str} {tokens : List Str}

theorem tokenKey_mem (h : tokenKey w = some k) : ∃ e ∈ infoKeys, e.2 = k := by
  obtain ⟨e, he, hk⟩ := Option.map_eq_some_iff.mp h
  exact ⟨e, List.mem_of_find?_eq_some he, hk⟩

/-- A token does nothing, or what its key does with its value. -/
theorem networkInfoParse_cases (h : networkInfoParse n w = .ok n') :
    tokenKey w = none ∧ n' = n ∨
    ∃ k, tokenKey w = some k ∧ applyInfoKey n (tokenValue w) k = .ok n' := by
  unfold networkInfoParse at h
  cases hk : tokenKey w with
  | none =>
      rw [hk] at h
      exact .inl ⟨rfl, (Except.ok.inj h).symm⟩
  | some k =>
      rw [hk] at h
      exact .inr ⟨k, rfl, h⟩

theorem networkInfoParseAll_snoc (n : NetworkInfo) (tokens : List Str) (w : Str) :
    networkInfoParseAll n (tokens ++ [w]) =
      networkInfoParseAll n tokens >>= fun n => networkInfoParse n w := by
  rw [networkInfoParseAll, List.foldlM_append]
  simp only [List.foldlM_cons, List.foldlM_nil, bind_pure]
  rfl

/-- The last token of a key decides what its fields are. -/
theorem networkInfoParseAll_last {P : Option (Option Str) → NetworkInfo → Prop}
    (hkeys : ∀ e ∈ infoKeys, e.2 ≠ k → ∀ f ∈ k.fields, f ∉ e.2.fields)
    (hstart : P none networkInfoInit)
    (hset : ∀ n v n', applyInfoKey n v k = .ok n' → P (some v) n')
    (hframe : ∀ n n' x, P x n → (∀ f ∈ k.fields, n'.value f = n.value f) → P x n')
    (h : networkInfoParseAll networkInfoInit tokens = .ok i) : P (lastValue k tokens) i := by
  induction tokens using List.reverseRecOn generalizing i with
  | nil =>
      cases h
      exact hstart
  | append_singleton tokens w ih =>
      rw [networkInfoParseAll_snoc] at h
      obtain ⟨n, hn, hw⟩ := bind_eq_ok h
      have before := ih hn
      have hlast : lastValue k (tokens ++ [w]) =
          if tokenKey w = some k then some (tokenValue w) else lastValue k tokens := by
        rw [lastValue, List.filter_append]
        by_cases hk : tokenKey w = some k
        · rw [if_pos hk, List.filter_cons_of_pos (by simp [hk])]
          simp
        · rw [if_neg hk, List.filter_cons_of_neg (by simp [hk]), List.filter_nil, List.append_nil]
          rfl
      rw [hlast]
      rcases networkInfoParse_cases hw with ⟨hnone, rfl⟩ | ⟨k', hk', happly⟩
      · rw [if_neg (by simp [hnone])]
        exact before
      · by_cases hkk : k' = k
        · subst hkk
          rw [if_pos hk']
          exact hset _ _ _ happly
        · rw [if_neg (by simp [hk', hkk])]
          obtain ⟨e, he, rfl⟩ := tokenKey_mem hk'
          exact hframe _ _ _ before fun f hf => applyInfoKey_frame happly (hkeys e he hkk f hf)

/-! ### What is printed is parsed back -/

theorem joinWith_cons {c : Byte} {ss : List Str} (h : ss ≠ []) (s : Str) :
    joinWith c (s :: ss) = s ++ c :: joinWith c ss := by
  cases ss with
  | nil => exact absurd rfl h
  | cons s' ss => rfl

theorem pieces_joinWith {c : Byte} {ss : List Str} (hne : ss ≠ []) (h : ∀ s ∈ ss, c ∉ s) :
    pieces c (joinWith c ss) = ss := by
  induction ss with
  | nil => exact absurd rfl hne
  | cons s ss ih =>
      have hs := h s List.mem_cons_self
      cases ss with
      | nil => exact pieces_single hs
      | cons s' ss =>
          have hrest := ih (List.cons_ne_nil _ _) fun x hx => h x (List.mem_cons_of_mem _ hx)
          rw [joinWith, pieces_append hs, hrest]
          simp

/-- The pieces of a value are joined to it again. -/
theorem joinWith_gStrsplitN (c : Byte) (v : Str) (n : ℕ) : joinWith c (gStrsplitN v c n) = v := by
  have hpieces : ∀ n s, joinWith c (piecesN c n s) = s ∧ piecesN c n s ≠ [] := by
    intro n
    induction n with
    | zero => exact fun s => ⟨rfl, List.cons_ne_nil _ _⟩
    | succ n ih =>
        intro s
        cases n with
        | zero => exact ⟨rfl, List.cons_ne_nil _ _⟩
        | succ n =>
            rw [piecesN]
            cases hd : s.dropWhile (· ≠ c) with
            | nil => exact ⟨rfl, List.cons_ne_nil _ _⟩
            | cons x rest =>
                obtain ⟨hjoin, hne⟩ := ih rest
                have hx : x = c := by
                  have hhead := List.head?_dropWhile_not (fun b => decide (b ≠ c)) s
                  rw [hd] at hhead
                  simpa using hhead
                refine ⟨?_, List.cons_ne_nil _ _⟩
                subst hx
                dsimp only
                rw [joinWith_cons hne, hjoin, ← hd, List.takeWhile_append_dropWhile]
  rw [gStrsplitN]
  split
  · next hv => rw [hv]; rfl
  · exact (hpieces n v).1

/-- The pieces of a value that is split once. -/
theorem gStrsplitN_two {c : Byte} {v : Str} (hv : v ≠ []) :
    gStrsplitN v c 2 = [v] ∧ c ∉ v ∨ ∃ p s, gStrsplitN v c 2 = [p, s] ∧ v = p ++ c :: s ∧ c ∉ p := by
  by_cases hc : c ∈ v
  · obtain ⟨p, s, rfl, hp⟩ := List.eq_append_cons_of_mem hc
    refine .inr ⟨p, s, ?_, rfl, hp⟩
    rw [gStrsplitN, if_neg hv, piecesN_append hp, piecesN]
  · have hdrop : v.dropWhile (· ≠ c) = [] := dropWhile_ne_eq_nil.mpr hc
    refine .inl ⟨?_, hc⟩
    rw [gStrsplitN, if_neg hv, piecesN, hdrop]

theorem gAsciiStringToSigned_decimalInt {v : ℤ} (h : 0 ≤ v ∧ v < 2 ^ 31) :
    gAsciiStringToSigned (some (decimalInt v)) = some v := by
  obtain ⟨d, s, hs, hd, -⟩ := decimal_cons v.natAbs
  have hval : (v.natAbs : ℤ) = v := by omega
  have h₁ : ¬(v < -2 ^ 63) := by omega
  have h₂ : ¬(2 ^ 63 ≤ v) := by omega
  have h₃ : ¬(v > 2 ^ 31 - 1) := by omega
  rw [decimalInt, if_neg (not_lt.mpr h.1), hs, gAsciiStringToSigned]
  simp only [← hs, strtol_decimal, digit_not_space, hval, clampLong, h₁, h₂, h₃, dite_false,
    not_lt.mpr h.1, Bool.false_eq_true, ne_eq, not_true_eq_false, or_self, if_false]

theorem gAsciiStringToSigned_range {v : Option Str} {x : ℤ} (h : gAsciiStringToSigned v = some x) :
    0 ≤ x ∧ x < 2 ^ 31 := by
  unfold gAsciiStringToSigned at h
  split at h
  · cases h
  · cases h
  · dsimp only at h
    split at h
    · cases h
    · next hno =>
      cases h
      push Not at hno
      omega

end

/-! ### What an info can have in its fields -/

/-- What tokens without spaces in their values leave in the fields. -/
structure Announceable (i : NetworkInfo) : Prop where
  text : ∀ t v, i.text t = some v → chr ' ' ∉ v
  num : ∀ k, k ≠ .keylen → k ≠ .silenceLimit → 0 ≤ i.num k ∧ i.num k < 2 ^ 31
  int : ∀ k, -2 ^ 31 ≤ i.num k ∧ i.num k < 2 ^ 31
  silence : i.flag .silence = false → i.num .silenceLimit = 0
  mode : ∀ m b, i.mode m = some b → b ≠ chr ' '
  chanmodes : ∀ g, i.chanmodes = some g → ∃ v, chr ' ' ∉ v ∧ g = gStrsplitN v (chr ',') 4
  noExtban : i.extbanPrefix = none → i.extbanSupported = none
  extban : ∀ p, i.extbanPrefix = some p →
    chr ',' ∉ p ∧ chr ' ' ∉ p ∧ ∀ s, i.extbanSupported = some s → chr ' ' ∉ s
  prefixes : chr ' ' ∉ i.prefixes
  table : i.prefixes = [] ∨ i.prefixes.head? = some (chr '(') ∧ chr ')' ∈ i.prefixes

section
variable {n n' i : NetworkInfo} {k : InfoKey} {v : Option Str} {w : Str} {tokens : List Str}

theorem networkInfoInit_announceable : Announceable networkInfoInit where
  text t v h := by
    by_cases ht : t = .chantypes
    · subst ht
      cases h
      decide
    · have hnone : networkInfoInit.text t = none := if_neg ht
      rw [hnone] at h
      cases h
  num _ _ _ := by simp [networkInfoInit]
  int _ := by simp [networkInfoInit]
  silence _ := rfl
  mode _ _ h := by cases h
  chanmodes _ h := by cases h
  noExtban _ := rfl
  extban _ h := by cases h
  prefixes := by decide
  table := .inr (by decide)

/-- A number that is in range. -/
theorem Announceable.setNum (h : Announceable n) {k : InfoNum} {x : ℤ}
    (hk : k ≠ .silenceLimit ∨ n.flag .silence = true) (hx : -2 ^ 31 ≤ x ∧ x < 2 ^ 31)
    (hnat : k ≠ .keylen → k ≠ .silenceLimit → 0 ≤ x) : Announceable (n.setNum k x) :=
  { h with
    num := fun k' h₁ h₂ => by
      simp only [NetworkInfo.setNum]
      split
      · next e => subst e; exact ⟨hnat h₁ h₂, hx.2⟩
      · exact h.num k' h₁ h₂
    int := fun k' => by
      simp only [NetworkInfo.setNum]
      split
      · exact hx
      · exact h.int k'
    silence := fun hs => by
      have hne : InfoNum.silenceLimit ≠ k := by
        rintro rfl
        rcases hk with hk | hk
        · exact hk rfl
        · exact absurd (hk.symm.trans hs) (by decide)
      simp only [NetworkInfo.setNum, if_neg hne]
      exact h.silence hs }

theorem Announceable.setFlag (h : Announceable n) (f : InfoFlag) : Announceable (n.setFlag f) :=
  { h with
    silence := fun hs => by
      simp only [NetworkInfo.setFlag] at hs
      split at hs
      · cases hs
      · exact h.silence hs }

theorem Announceable.setMode (h : Announceable n) (m : InfoMode) {o : Option Byte}
    (ho : ∀ b, o = some b → b ≠ chr ' ') : Announceable (n.setMode m o) :=
  { h with
    mode := fun m' b hb => by
      simp only [NetworkInfo.setMode] at hb
      split at hb
      · exact ho b hb
      · exact h.mode m' b hb }

/-- A token whose value has no space keeps the fields announceable. -/
theorem Announceable.apply (h : Announceable n) (hk : ∃ e ∈ infoKeys, e.2 = k)
    (hv : ∀ x, v = some x → chr ' ' ∉ x) (happly : applyInfoKey n v k = .ok n') :
    Announceable n' := by
  cases applyInfoKey_cases happly with
  | badNum | longMode | badPrefixes => exact h
  | casemapping m => exact { h with }
  | text t =>
      refine { h with text := fun t' x hx => ?_ }
      simp only [NetworkInfo.setText] at hx
      split at hx
      · exact hv x hx
      · exact h.text t' x hx
  | num k hx =>
      have hlimit : k ≠ .silenceLimit := by
        rintro rfl
        revert hk
        decide
      have hrange := gAsciiStringToSigned_range hx
      exact h.setNum (.inl hlimit) ⟨by omega, hrange.2⟩ fun _ _ => hrange.1
  | flag f => exact h.setFlag f
  | keylen x => exact h.setNum (.inl (by decide)) (atoi_range x) fun hne => absurd rfl hne
  | silence => exact h.setFlag _
  | silenceLimit x =>
      exact (h.setFlag .silence).setNum (.inr rfl) (atoi_range x) fun _ hne => absurd rfl hne
  | defaultChanmodes =>
      exact { h with chanmodes := fun g hg => absurd hg.symm (Option.some_ne_none g) }
  | chanmodes x hs =>
      refine { h with chanmodes := fun g hg => ?_ }
      cases hg
      exact ⟨x, hv x rfl, rfl⟩
  | defaultMode m d =>
      have hd : d ≠ chr ' ' := by
        rintro rfl
        revert hk
        cases m <;> decide
      refine h.setMode m fun b hb => ?_
      cases hb
      exact hd
  | @mode x m d hx => exact h.setMode m fun b hb e => hv x rfl (e ▸ List.mem_of_head? hb)
  | elist x =>
      refine { h with silence := fun hs => h.silence ?_ }
      simp only [Bool.or_eq_false_iff] at hs
      exact hs.1
  | defaultExtban =>
      refine { h with noExtban := fun hno => (Option.some_ne_none _ hno).elim, extban := fun p hp => ?_ }
      cases hp
      exact ⟨by decide, by decide, fun s hs => by cases hs; decide⟩
  | @extban x hx =>
      have hspace := hv x rfl
      rcases gStrsplitN_two (c := chr ',') hx with ⟨hparts, hc⟩ | ⟨p, s, hparts, rfl, hc⟩
      · rw [hparts]
        refine { h with noExtban := fun hno => (Option.some_ne_none _ hno).elim, extban := fun p hp => ?_ }
        cases hp
        exact ⟨hc, hspace, fun s hs => (Option.some_ne_none s hs.symm).elim⟩
      · rw [hparts]
        refine { h with noExtban := fun hno => (Option.some_ne_none _ hno).elim, extban := fun p' hp => ?_ }
        cases hp
        refine ⟨hc, fun hp => hspace (List.mem_append_left _ hp), fun s' hs => ?_⟩
        cases hs
        exact fun hs => hspace (List.mem_append_right _ (List.mem_cons_of_mem _ hs))
  | @prefixes x hx => exact { h with prefixes := hv x rfl, table := hx }

/-- What tokens without spaces in their values are parsed as. -/
theorem networkInfoParseAll_announceable
    (hspace : ∀ w ∈ tokens, ∀ x, tokenValue w = some x → chr ' ' ∉ x)
    (h : networkInfoParseAll networkInfoInit tokens = .ok i) : Announceable i ∧ Unwelcomed i := by
  induction tokens using List.reverseRecOn generalizing i with
  | nil =>
      cases h
      exact ⟨networkInfoInit_announceable, rfl, rfl, rfl⟩
  | append_singleton tokens w ih =>
      rw [networkInfoParseAll_snoc] at h
      obtain ⟨n, hn, hw⟩ := bind_eq_ok h
      obtain ⟨hsound, hun⟩ := ih (fun x hx => hspace x (List.mem_append_left _ hx)) hn
      rcases networkInfoParse_cases hw with ⟨-, rfl⟩ | ⟨k, hk, happly⟩
      · exact ⟨hsound, hun⟩
      · have hval := hspace w (List.mem_append_right _ List.mem_cons_self)
        exact ⟨hsound.apply (tokenKey_mem hk) hval happly, applyInfoKey_unwelcomed happly hun⟩

end

/-! ### The announcement, parsed -/

/-- The mapping that is announced for a mapping. -/
def Casemapping.announced : Casemapping → Casemapping
  | .unknown => .rfc1459
  | m => m

/-- What the announcement of an info is parsed as. -/
def reannounced (i : NetworkInfo) : NetworkInfo :=
  { i with
    casemapping := i.casemapping.announced
    text := fun t => if t = .chantypes then some ((i.text t).getD DEFAULT_CHANTYPES) else i.text t
    extbanSupported := i.extbanPrefix.map fun _ => i.extbanSupported.getD (str "(null)") }

section
variable {n i : NetworkInfo} {key : Str} {k : InfoKey} {order : List (Str × InfoKey)}

/-- The keys that are printed are told from their names, and nothing else is in them. -/
theorem infoOrder_key (he : (key, k) ∈ infoOrder) :
    chr '=' ∉ key ∧ chr ' ' ∉ key ∧
      (infoKeys.find? fun e => baseEq (some key) e.1).map Prod.snd = some k := by
  have all : ∀ e ∈ infoOrder, chr '=' ∉ e.1 ∧ chr ' ' ∉ e.1 ∧
      (infoKeys.find? fun e' => baseEq (some e.1) e'.1).map Prod.snd = some e.2 := by decide
  exact all _ he

theorem takeWhile_key {x : Str} (h : chr '=' ∉ x) (rest : Str) :
    (x ++ rest).takeWhile (· ≠ chr '=') = x ++ rest.takeWhile (· ≠ chr '=') ∧
      (x ++ rest).dropWhile (· ≠ chr '=') = rest.dropWhile (· ≠ chr '=') := by
  have hx : ∀ b ∈ x, decide (b ≠ chr '=') = true := fun b hb => decide_eq_true fun e => h (e ▸ hb)
  exact ⟨List.takeWhile_append_of_pos hx, List.dropWhile_append_of_pos hx⟩

theorem networkInfoParse_infoToken (he : (key, k) ∈ infoOrder) (n : NetworkInfo) (v : Str) :
    networkInfoParse n (infoToken key v) = applyInfoKey n (some v) k := by
  obtain ⟨heq, -, hkey⟩ := infoOrder_key he
  obtain ⟨htake, hdrop⟩ := takeWhile_key heq (chr '=' :: v)
  have hk : tokenKey (infoToken key v) = some k := by
    rw [tokenKey, infoToken, htake]
    simpa using hkey
  have hval : tokenValue (infoToken key v) = some v := by
    rw [tokenValue, infoToken, hdrop]
    simp
  rw [networkInfoParse, hk, hval]

theorem networkInfoParse_key (he : (key, k) ∈ infoOrder) (n : NetworkInfo) :
    networkInfoParse n key = applyInfoKey n none k := by
  obtain ⟨heq, -, hkey⟩ := infoOrder_key he
  obtain ⟨htake, hdrop⟩ := takeWhile_key heq []
  rw [List.append_nil] at htake hdrop
  have hk : tokenKey key = some k := by
    rw [tokenKey, htake]
    simpa using hkey
  have hval : tokenValue key = none := by
    rw [tokenValue, hdrop]
    rfl
  rw [networkInfoParse, hk, hval]

/-- The letters of an `ELIST` value say which of its flags are set. -/
theorem elistLetters_any (i : NetworkInfo) {f : InfoFlag}
    (hf : InfoField.flag f ∈ InfoKey.elist.fields) :
    ((elistLetters i).any fun b => elistFlag b = some f) = i.flag f := by
  simp only [InfoKey.fields, List.mem_cons, InfoField.flag.injEq, List.not_mem_nil, or_false] at hf
  simp only [elistLetters, List.any_append]
  rcases hf with rfl | rfl | rfl | rfl | rfl
  all_goals
    generalize i.flag .elistMaskSearch = a
    generalize i.flag .elistInverseMaskSearch = b
    generalize i.flag .elistUsercountSearch = c
    generalize i.flag .elistCreationTimeSearch = d
    generalize i.flag .elistTopicSearch = e
    revert a b c d e
    decide

/-- What is printed for a key is nothing, if its fields are as in a fresh info, or one token that is
parsed into them. -/
theorem infoTokens_cases (hi : Announceable i) (he : (key, k) ∈ infoOrder) (hn : Unwelcomed n)
    (hfresh : ∀ f ∈ k.fields, n.value f = networkInfoInit.value f) :
    infoTokens i key k = [] ∧ (∀ f ∈ k.fields, n.value f = (reannounced i).value f) ∨
    ∃ w v n', infoTokens i key k = [w] ∧ networkInfoParse n w = applyInfoKey n v k ∧
      applyInfoKey n v k = .ok n' ∧ ∀ f ∈ k.fields, n'.value f = (reannounced i).value f := by
  have token := networkInfoParse_infoToken he n
  cases k with
  | casemapping =>
      have parsed : ∀ m : Casemapping, (if baseEq (some (casemapName m)) (str "rfc1459") then .rfc1459
          else if baseEq (some (casemapName m)) (str "strict-rfc1459") then .strictRfc1459
          else if baseEq (some (casemapName m)) (str "ascii") then .ascii
          else .unknown) = m.announced := by
        intro m
        cases m <;> rfl
      refine .inr ⟨_, _, _, rfl, token _, rfl, ?_⟩
      rw [InfoKey.fields, List.forall_mem_singleton]
      exact parsed i.casemapping
  | text t =>
      simp only [infoTokens, InfoKey.fields, List.forall_mem_singleton] at hfresh ⊢
      have htarget : (reannounced i).text t =
          if t = .chantypes then some ((i.text t).getD DEFAULT_CHANTYPES) else i.text t := rfl
      cases ht : i.text t with
      | none =>
          refine .inl ⟨rfl, hfresh.trans ?_⟩
          show networkInfoInit.text t = (reannounced i).text t
          rw [htarget, ht]
          rfl
      | some v =>
          refine .inr ⟨_, _, _, rfl, token v, rfl, ?_⟩
          show (n.setText t (some v)).text t = (reannounced i).text t
          rw [htarget, ht, NetworkInfo.setText]
          simp
  | num k =>
      have hk : k ≠ .keylen ∧ k ≠ .silenceLimit := by
        constructor
        · rintro rfl
          revert he
          have hno : ∀ e ∈ infoOrder, e.2 ≠ .num .keylen := by decide
          exact fun he => hno _ he rfl
        · rintro rfl
          have hno : ∀ e ∈ infoOrder, e.2 ≠ .num .silenceLimit := by decide
          exact hno _ he rfl
      simp only [infoTokens, InfoKey.fields, List.forall_mem_singleton] at hfresh ⊢
      by_cases hzero : i.num k = 0
      · exact .inl ⟨if_pos hzero, hfresh.trans hzero.symm⟩
      · have hval := gAsciiStringToSigned_decimalInt (hi.num k hk.1 hk.2)
        refine .inr ⟨_, _, n.setNum k (i.num k), if_neg hzero, token _, ?_, if_pos rfl⟩
        rw [applyInfoKey, hval]
  | flag g =>
      simp only [infoTokens, InfoKey.fields, List.forall_mem_singleton] at hfresh ⊢
      cases hg : i.flag g with
      | false => exact .inl ⟨rfl, hfresh.trans hg.symm⟩
      | true => exact .inr ⟨_, none, _, rfl, networkInfoParse_key he n, rfl, (if_pos rfl).trans hg.symm⟩
  | keylen =>
      simp only [infoTokens, InfoKey.fields, List.forall_mem_singleton] at hfresh ⊢
      by_cases hzero : i.num .keylen = 0
      · exact .inl ⟨if_pos hzero, hfresh.trans hzero.symm⟩
      · refine .inr ⟨_, _, _, if_neg hzero, token _, rfl, ?_⟩
        show (n.setNum .keylen (atoi (decimalInt (i.num .keylen)))).num .keylen = i.num .keylen
        rw [atoi_decimalInt (hi.int .keylen)]
        rfl
  | silence =>
      simp only [infoTokens, InfoKey.fields, List.forall_mem_cons] at hfresh ⊢
      obtain ⟨hflag, hlimit, -⟩ := hfresh
      cases hs : i.flag .silence with
      | false => exact .inl ⟨rfl, hflag.trans hs.symm, hlimit.trans (hi.silence hs).symm,
          List.forall_mem_nil _⟩
      | true =>
          by_cases hzero : i.num .silenceLimit = 0
          · exact .inr ⟨_, none, _, if_pos hzero, networkInfoParse_key he n, rfl, hs.symm,
              hlimit.trans hzero.symm, List.forall_mem_nil _⟩
          · refine .inr ⟨_, _, _, if_neg hzero, token _, rfl, hs.symm, ?_,
              List.forall_mem_nil _⟩
            exact atoi_decimalInt (hi.int .silenceLimit)
  | chanmodes =>
      simp only [infoTokens, InfoKey.fields, List.forall_mem_singleton] at hfresh ⊢
      cases hg : i.chanmodes with
      | none => exact .inl ⟨rfl, hfresh.trans hg.symm⟩
      | some g =>
          obtain ⟨v, -, rfl⟩ := hi.chanmodes g hg
          have hjoin : gStrjoinv (chr ',') (gStrsplitN v (chr ',') 4) = v := joinWith_gStrsplitN _ _ _
          refine .inr ⟨_, _, _, rfl, token _, rfl, ?_⟩
          simp only [hjoin, checkChanmodesInconsistency, hn.channelModes, ite_self]
          exact hg.symm
  | mode m d =>
      simp only [infoTokens, InfoKey.fields, List.forall_mem_singleton] at hfresh ⊢
      cases hm : i.mode m with
      | none => exact .inl ⟨rfl, hfresh.trans hm.symm⟩
      | some b => exact .inr ⟨_, _, _, rfl, token _, rfl, (if_pos rfl).trans hm.symm⟩
  | elist =>
      by_cases hempty : elistLetters i = []
      · refine .inl ⟨if_pos hempty, fun f hf => (hfresh f hf).trans ?_⟩
        cases f with
        | flag g =>
            have hany := elistLetters_any i hf
            rw [hempty] at hany
            exact hany
        | _ => simp [InfoKey.fields] at hf
      · refine .inr ⟨_, _, _, if_neg hempty, token _, applyInfoKey_elist n _, fun f hf => ?_⟩
        cases f with
        | flag g =>
            have hfalse : n.flag g = false := hfresh _ hf
            show (n.flag g || _) = i.flag g
            rw [hfalse, Bool.false_or, elistLetters_any i hf]
        | _ => simp [InfoKey.fields] at hf
  | extban =>
      simp only [infoTokens, InfoKey.fields, List.forall_mem_singleton] at hfresh ⊢
      have htarget : (reannounced i).value .extban = (i.extbanPrefix,
        i.extbanPrefix.map fun _ => i.extbanSupported.getD (str "(null)")) := rfl
      rw [htarget]
      cases hp : i.extbanPrefix with
      | none => exact .inl ⟨rfl, hfresh⟩
      | some p =>
          obtain ⟨hcomma, -, -⟩ := hi.extban p hp
          refine .inr ⟨_, _, { n with
            extbanPrefix := some p
            extbanSupported := some (i.extbanSupported.getD (str "(null)")) }, rfl, token _, ?_, rfl⟩
          have hsplit : gStrsplitN (p ++ chr ',' :: i.extbanSupported.getD (str "(null)")) (chr ',') 2 =
              [p, i.extbanSupported.getD (str "(null)")] := by
            rw [gStrsplitN, if_neg (by simp), piecesN_append hcomma, piecesN]
          simp only [applyInfoKey, hsplit]
          rfl
  | prefixes =>
      refine .inr ⟨_, _, { n with prefixes := i.prefixes }, rfl, token _, ?_,
        List.forall_mem_singleton.mpr rfl⟩
      have hgood : ¬(i.prefixes ≠ [] ∧ (i.prefixes.head? ≠ some (chr '(') ∨ chr ')' ∉ i.prefixes)) := by
        rintro ⟨hne, hbad⟩
        obtain ⟨hopen, hclose⟩ := hi.table.resolve_left hne
        rcases hbad with hbad | hbad
        · exact hbad hopen
        · exact hbad hclose
      rw [applyInfoKey, if_neg hgood]

/-- Keys without a common field are parsed back one after the other. -/
theorem networkInfoParseAll_order (hi : Announceable i) (hmem : ∀ e ∈ order, e ∈ infoOrder)
    (hnodup : (order.flatMap fun e => e.2.fields).Nodup) (hn : Unwelcomed n)
    (hfresh : ∀ e ∈ order, ∀ f ∈ e.2.fields, n.value f = networkInfoInit.value f) :
    ∃ n', networkInfoParseAll n (order.flatMap fun e => infoTokens i e.1 e.2) = .ok n' ∧
      Unwelcomed n' ∧ (∀ e ∈ order, ∀ f ∈ e.2.fields, n'.value f = (reannounced i).value f) ∧
      ∀ f, (∀ e ∈ order, f ∉ e.2.fields) → n'.value f = n.value f := by
  induction order generalizing n with
  | nil => exact ⟨n, rfl, hn, nofun, fun _ _ => rfl⟩
  | cons e order ih =>
      obtain ⟨key, k⟩ := e
      rw [List.flatMap_cons, List.nodup_append'] at hnodup
      obtain ⟨-, hrest, hdisjoint⟩ := hnodup
      have apart : ∀ e ∈ order, ∀ f ∈ e.2.fields, f ∉ k.fields := fun e he f hf hk =>
        hdisjoint hk (List.mem_flatMap.mpr ⟨e, he, hf⟩)
      have hkey : (key, k) ∈ infoOrder := hmem _ List.mem_cons_self
      have hmem' : ∀ e ∈ order, e ∈ infoOrder := fun e he => hmem e (List.mem_cons_of_mem _ he)
      -- what is left to parse starts at an info that has this key's fields
      have continued : ∀ n₁, Unwelcomed n₁ →
          (∀ f ∈ k.fields, n₁.value f = (reannounced i).value f) →
          (∀ f, f ∉ k.fields → n₁.value f = n.value f) →
          ∃ n', networkInfoParseAll n₁ (order.flatMap fun e => infoTokens i e.1 e.2) = .ok n' ∧
            Unwelcomed n' ∧
            (∀ e ∈ (key, k) :: order, ∀ f ∈ e.2.fields, n'.value f = (reannounced i).value f) ∧
            ∀ f, (∀ e ∈ (key, k) :: order, f ∉ e.2.fields) → n'.value f = n.value f := by
        intro n₁ hn₁ hset hkeep
        obtain ⟨n', hparse, hn', hdone, hleft⟩ := ih hmem' hrest hn₁ fun e he f hf =>
          (hkeep f (apart e he f hf)).trans (hfresh e (List.mem_cons_of_mem _ he) f hf)
        refine ⟨n', hparse, hn', fun e he f hf => ?_, fun f hf => ?_⟩
        · rcases List.mem_cons.mp he with rfl | he
          · exact (hleft f fun e he hf' => apart e he f hf' hf).trans (hset f hf)
          · exact hdone e he f hf
        · exact (hleft f fun e he => hf e (List.mem_cons_of_mem _ he)).trans
            (hkeep f (hf _ List.mem_cons_self))
      rw [List.flatMap_cons]
      rcases infoTokens_cases hi hkey hn (hfresh _ List.mem_cons_self) with
        ⟨hnone, hval⟩ | ⟨w, v, n₁, hone, hparse, happly, hval⟩
      · rw [hnone, List.nil_append]
        exact continued n hn hval fun _ _ => rfl
      · rw [hone, List.singleton_append, networkInfoParseAll, List.foldlM_cons, hparse, happly]
        exact continued n₁ (applyInfoKey_unwelcomed happly hn) hval fun f hf =>
          applyInfoKey_frame happly hf

/-- What is printed has no space in it. -/
theorem infoTokens_space (hi : Announceable i) (he : (key, k) ∈ infoOrder) :
    ∀ w ∈ infoTokens i key k, chr ' ' ∉ w := by
  obtain ⟨-, hkey, -⟩ := infoOrder_key he
  have token : ∀ v, chr ' ' ∉ v → chr ' ' ∉ infoToken key v := by
    intro v hv hmem
    rcases List.mem_append.mp hmem with hmem | hmem
    · exact hkey hmem
    · rcases List.mem_cons.mp hmem with heq | hmem
      · exact absurd heq (by decide)
      · exact hv hmem
  have number : ∀ k, chr ' ' ∉ decimalInt (i.num k) := fun k hmem => by
    rcases mem_decimalInt hmem with heq | hdigit
    · exact absurd heq (by decide)
    · exact absurd hdigit (by decide)
  cases k with
  | casemapping =>
      have hname : chr ' ' ∉ casemapName i.casemapping := by
        cases i.casemapping <;> decide
      exact List.forall_mem_singleton.mpr (token _ hname)
  | text t =>
      simp only [infoTokens]
      split
      · nofun
      · next v hv => exact List.forall_mem_singleton.mpr (token _ (hi.text t v hv))
  | num k =>
      simp only [infoTokens]
      split
      · nofun
      · exact List.forall_mem_singleton.mpr (token _ (number k))
  | flag g =>
      simp only [infoTokens]
      split
      · exact List.forall_mem_singleton.mpr hkey
      · nofun
  | keylen =>
      simp only [infoTokens]
      split
      · nofun
      · exact List.forall_mem_singleton.mpr (token _ (number _))
  | silence =>
      simp only [infoTokens]
      split
      · split
        · exact List.forall_mem_singleton.mpr hkey
        · exact List.forall_mem_singleton.mpr (token _ (number _))
      · nofun
  | chanmodes =>
      simp only [infoTokens]
      split
      · nofun
      · next g hg =>
        obtain ⟨v, hv, rfl⟩ := hi.chanmodes g hg
        refine List.forall_mem_singleton.mpr (token _ ?_)
        rwa [gStrjoinv, joinWith_gStrsplitN]
  | mode m d =>
      simp only [infoTokens]
      split
      · nofun
      · next b hb =>
        refine List.forall_mem_singleton.mpr (token _ ?_)
        rw [List.mem_singleton]
        exact fun heq => hi.mode m b hb heq.symm
  | elist =>
      have hletters : chr ' ' ∉ elistLetters i := by
        unfold elistLetters
        split_ifs <;> decide
      simp only [infoTokens]
      split
      · nofun
      · exact List.forall_mem_singleton.mpr (token _ hletters)
  | extban =>
      simp only [infoTokens]
      split
      · nofun
      · next p hp =>
        obtain ⟨-, hspace, htypes⟩ := hi.extban p hp
        refine List.forall_mem_singleton.mpr (token _ fun hmem => ?_)
        rcases List.mem_append.mp hmem with hmem | hmem
        · exact hspace hmem
        · rcases List.mem_cons.mp hmem with heq | hmem
          · exact absurd heq (by decide)
          · cases hs : i.extbanSupported with
            | none =>
                rw [hs] at hmem
                exact absurd hmem (by decide)
            | some s =>
                rw [hs] at hmem
                exact htypes s hs hmem
  | prefixes => exact List.forall_mem_singleton.mpr (token _ hi.prefixes)

/-- Every field has a key that is printed, and no two keys share one. -/
theorem infoOrder_fields :
    (infoOrder.flatMap fun e => e.2.fields).Nodup ∧ ∀ f, ∃ e ∈ infoOrder, f ∈ e.2.fields := by
  refine ⟨by decide, fun f => ?_⟩
  cases f with
  | casemapping | chanmodes | extban | prefixes => decide
  | text t => cases t <;> decide
  | num k => cases k <;> decide
  | flag g => cases g <;> decide
  | mode m => cases m <;> decide

/-- What is announced of an info is parsed, whatever its fields are. -/
theorem networkInfoString_reannounced (hi : Announceable i) (hun : Unwelcomed i) :
    networkInfoParseAll networkInfoInit (pieces (chr ' ') (networkInfoString i)) =
      .ok (reannounced i) := by
  obtain ⟨hnodup, hcover⟩ := infoOrder_fields
  have hpieces : pieces (chr ' ') (networkInfoString i) =
      infoOrder.flatMap fun e => infoTokens i e.1 e.2 := by
    refine pieces_joinWith ?_ ?_
    · have hfirst : infoToken (str "CASEMAPPING") (casemapName i.casemapping) ∈
          infoOrder.flatMap fun e => infoTokens i e.1 e.2 :=
        List.mem_flatMap.mpr ⟨(str "CASEMAPPING", .casemapping), by decide, List.mem_cons_self⟩
      exact List.ne_nil_of_mem hfirst
    · intro w hw
      obtain ⟨e, he, hw⟩ := List.mem_flatMap.mp hw
      exact infoTokens_space hi he w hw
  have hinit : Unwelcomed networkInfoInit := ⟨rfl, rfl, rfl⟩
  obtain ⟨n, hparse, hn, hval, -⟩ := networkInfoParseAll_order hi (fun _ he => he) hnodup hinit
    fun _ _ _ _ => rfl
  have hre : Unwelcomed (reannounced i) := ⟨hun.server, hun.userModes, hun.channelModes⟩
  rw [hpieces, hparse, eq_of_value hn hre fun f => by
    obtain ⟨e, he, hf⟩ := hcover f
    exact hval e he f hf]

end

/-! ### What is lost -/

section
variable {i : NetworkInfo} {tokens : List Str}

/-- There are no channel types when the last token about them has no value. -/
theorem chantypes_none_iff (h : networkInfoParseAll networkInfoInit tokens = .ok i) :
    i.text .chantypes = none ↔ lastValue (.text .chantypes) tokens = some none := by
  refine networkInfoParseAll_last (P := fun x n => n.text .chantypes = none ↔ x = some none)
    (by decide) (by simp [networkInfoInit]) ?_ ?_ h
  · rintro n v n' happly
    cases happly
    have hset : (n.setText .chantypes v).text .chantypes = v := by
      simp [NetworkInfo.setText]
    rw [hset, Option.some.injEq]
  · rintro n n' x hP hkeep
    rw [show n'.text .chantypes = n.text .chantypes from hkeep (.text .chantypes) List.mem_cons_self]
    exact hP

/-- A prefix has no types when the last token about it names none. -/
theorem extban_none_iff (h : networkInfoParseAll networkInfoInit tokens = .ok i) :
    i.extbanPrefix ≠ none ∧ i.extbanSupported = none ↔
      ∃ v, lastValue .extban tokens = some (some v) ∧ chr ',' ∉ v := by
  refine networkInfoParseAll_last
    (P := fun x n => n.extbanPrefix ≠ none ∧ n.extbanSupported = none ↔
      ∃ v, x = some (some v) ∧ chr ',' ∉ v)
    (by decide) (by simp [networkInfoInit]) ?_ ?_ h
  · rintro n v n' happly
    cases applyInfoKey_cases happly with
    | defaultExtban => simp
    | @extban x hx =>
        rcases gStrsplitN_two (c := chr ',') hx with ⟨hparts, hc⟩ | ⟨p, s, hparts, rfl, -⟩
        · simp [hparts, hc]
        · simp [hparts]
  · rintro n n' x hP hkeep
    obtain ⟨hmark, htypes⟩ := Prod.mk.inj (hkeep .extban List.mem_cons_self)
    rw [hmark, htypes]
    exact hP

/-- The announcement of an info that tokens gave is parsed as that info, with the mapping it is
compared by, exactly when it has channel types and the types of its extended bans. -/
theorem networkInfoString_parse
    (hspace : ∀ w ∈ tokens, ∀ v, tokenValue w = some v → chr ' ' ∉ v)
    (h : networkInfoParseAll networkInfoInit tokens = .ok i) :
    ∃ j, networkInfoParseAll networkInfoInit (pieces (chr ' ') (networkInfoString i)) = .ok j ∧
      (j = { i with casemapping := i.casemapping.announced } ↔
        lastValue (.text .chantypes) tokens ≠ some none ∧
        ∀ v, lastValue .extban tokens = some (some v) → chr ',' ∈ v) := by
  obtain ⟨hi, hun⟩ := networkInfoParseAll_announceable hspace h
  refine ⟨reannounced i, networkInfoString_reannounced hi hun, ?_⟩
  have htypes := chantypes_none_iff h
  have hextban := extban_none_iff h
  constructor
  · intro heq
    have htext : (reannounced i).text .chantypes = i.text .chantypes := by rw [heq]
    have hsupported : (reannounced i).extbanSupported = i.extbanSupported := by rw [heq]
    refine ⟨fun hlast => ?_, fun v hv => ?_⟩
    · rw [htypes.mpr hlast] at htext
      simp [reannounced, htypes.mpr hlast] at htext
    · by_contra hc
      obtain ⟨hp, hs⟩ := hextban.mpr ⟨v, hv, hc⟩
      obtain ⟨p, hp⟩ := Option.ne_none_iff_exists'.mp hp
      simp [reannounced, hp, hs] at hsupported
  · rintro ⟨hlast, hcomma⟩
    have htext : (fun t => if t = .chantypes then some ((i.text t).getD DEFAULT_CHANTYPES) else i.text t) =
        i.text := by
      funext t
      split
      · next ht =>
        subst ht
        cases hv : i.text .chantypes with
        | none => exact absurd (htypes.mp hv) hlast
        | some v => rfl
      · rfl
    have hsupported : i.extbanPrefix.map (fun _ => i.extbanSupported.getD (str "(null)")) =
        i.extbanSupported := by
      cases hp : i.extbanPrefix with
      | none => exact (hi.noExtban hp).symm
      | some p =>
          cases hs : i.extbanSupported with
          | none =>
              obtain ⟨v, hv, hc⟩ := hextban.mp ⟨by simp [hp], hs⟩
              exact absurd (hcomma v hv) hc
          | some s => rfl
    rw [reannounced, htext, hsupported]

theorem networkInfoString_parse_freenode :
    ∃ i j, networkInfoParseAll networkInfoInit
        [str "CASEMAPPING=rfc1459", str "CHANTYPES=#", str "EXTBAN=$,ajrxz"] = .ok i ∧
      networkInfoParseAll networkInfoInit (pieces (chr ' ') (networkInfoString i)) = .ok j ∧
      j = { i with casemapping := i.casemapping.announced } := by
  obtain ⟨j, hj, hiff⟩ := @networkInfoString_parse _
    [str "CASEMAPPING=rfc1459", str "CHANTYPES=#", str "EXTBAN=$,ajrxz"] (by decide) rfl
  refine ⟨_, j, rfl, hj, hiff.mpr ⟨by decide, fun v hv => ?_⟩⟩
  have hlast : lastValue .extban [str "CASEMAPPING=rfc1459", str "CHANTYPES=#", str "EXTBAN=$,ajrxz"] =
      some (some (str "$,ajrxz")) := by decide
  cases hlast.symm.trans hv
  decide

/-- A mapping that is not known comes back as another one. -/
theorem unknown_mapping_announced :
    networkInfoParseAll networkInfoInit [str "CASEMAPPING=rfc7613"] = .ok networkInfoInit ∧
      ∃ j, networkInfoParseAll networkInfoInit
        (pieces (chr ' ') (networkInfoString networkInfoInit)) = .ok j ∧
        j.casemapping ≠ networkInfoInit.casemapping := by
  refine ⟨rfl, _, networkInfoString_reannounced networkInfoInit_announceable ⟨rfl, rfl, rfl⟩, ?_⟩
  decide

end

end Ctrlproxy
