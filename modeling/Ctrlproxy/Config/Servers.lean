import Ctrlproxy.Config.Networks
import Ctrlproxy.Lib.Assoc

/-!
# Config — servers

`config_save_tcp_servers` writes a server as a URL, and its password and bind address into a group that the
URL is the name of.  `config_load_servers` reads the URL, then the group, and removes the group.  As long as
the servers have different URLs every one finds its own group (`configLoadServers_save`); of a port only the
name of the default one is lost, which comes back as its number.

GKeyFile gives a string, or a list of strings, back as it was set (`Faithful`).
-/

namespace Ctrlproxy.Config

/-- GKeyFile gives back what it was given. -/
structure Faithful {V : Type} (values : KeyFileValues V) : Prop where
  string : ∀ s, values.getString (values.ofString s) = s
  stringList : ∀ list, values.getStringList (values.ofStringList list) = list

/-! ### Saving -/

/-- The URL of a server. -/
def TcpServerConfig.url (ts : TcpServerConfig) : Str := ircCreateUrl ts.host ts.port ts.ssl

section
variable {V : Type} (values : KeyFileValues V)

/-- Set a key to a string, or remove it. -/
def setOrRemove (kf : KeyFile V) (group key : Str) : Option Str → KeyFile V
  | some s => kf.setValue group key (values.ofString s)
  | none => kf.removeKey group key

/-- A server in the loop of `config_save_tcp_servers`. -/
def configSaveTcpServer (kf : KeyFile V) (ts : TcpServerConfig) : KeyFile V :=
  let kf := setOrRemove values kf ts.url (str "password") ts.password
  setOrRemove values kf ts.url (str "bind") ts.bindAddress

/-- `config_save_tcp_servers`. -/
def configSaveTcpServers (servers : List TcpServerConfig) (kf : KeyFile V) (groupname : Str) : KeyFile V :=
  (servers.foldl (configSaveTcpServer values) kf).setValue groupname (str "servers")
    (values.ofStringList (servers.map TcpServerConfig.url))

end

/-! ### Values of keys -/

namespace KeyFile
variable {V : Type}

theorem value_setValue (kf : KeyFile V) (group key : Str) (v : V) (group' key' : Str) :
    (kf.setValue group key v).value group' key' =
      if group' = group ∧ key' = key then some v else kf.value group' key' := by
  rw [setValue]
  by_cases hhas : kf.hasGroup group = true
  · rw [if_pos hhas]
    obtain ⟨keys, hkeys⟩ := Option.isSome_iff_exists.mp hhas
    have hlookup := Assoc.lookup_change group group' (fun keys => Assoc.remove key keys ++ [(key, v)]) kf
    rw [value, value]
    refine (congrArg (·.bind (·.lookup key')) hlookup).trans ?_
    by_cases hgroup : group' = group
    · subst hgroup
      simp only [hkeys, if_true, Option.map_some, Option.bind_some, true_and]
      exact Assoc.lookup_remove_snoc key key' v keys
    · simp [hgroup]
  · have hnone : kf.lookup group = none := by
      rwa [hasGroup, Bool.not_eq_true, Option.isSome_eq_false_iff, Option.isNone_iff_eq_none] at hhas
    rw [if_neg hhas, value, value, List.lookup_append]
    by_cases hgroup : group' = group
    · subst hgroup
      by_cases hkey : key' = key
      · simp [hnone, hkey]
      · simp [hnone, hkey, List.lookup_cons, beq_eq_false_iff_ne.mpr hkey]
    · simp [hgroup, List.lookup_cons, beq_eq_false_iff_ne.mpr hgroup]

theorem value_removeKey (kf : KeyFile V) (group key group' key' : Str) :
    (kf.removeKey group key).value group' key' =
      if group' = group ∧ key' = key then none else kf.value group' key' := by
  have hlookup := Assoc.lookup_change group group' (Assoc.remove key) kf
  rw [value, value]
  refine (congrArg (·.bind (·.lookup key')) hlookup).trans ?_
  by_cases hgroup : group' = group
  · subst hgroup
    cases kf.lookup group' with
    | none => simp
    | some keys => simpa using Assoc.lookup_remove key key' keys
  · simp [hgroup]

theorem value_removeGroup (kf : KeyFile V) (group group' key' : Str) :
    (kf.removeGroup group).value group' key' = if group' = group then none else kf.value group' key' := by
  have hlookup := Assoc.lookup_remove group group' kf
  rw [value, value]
  refine (congrArg (·.bind (·.lookup key')) hlookup).trans ?_
  split <;> rfl

end KeyFile

section
variable {V : Type} {values : KeyFileValues V} {kf : KeyFile V} {ts : TcpServerConfig}
  {servers : List TcpServerConfig} {group key : Str}

theorem value_setOrRemove (kf : KeyFile V) (group key : Str) (o : Option Str) (group' key' : Str) :
    (setOrRemove values kf group key o).value group' key' =
      if group' = group ∧ key' = key then o.map values.ofString else kf.value group' key' := by
  cases o with
  | some s => exact KeyFile.value_setValue kf group key _ group' key'
  | none => exact KeyFile.value_removeKey kf group key group' key'

/-! ### URLs -/

/-- The number of the default port in place of its name. -/
def canonicalPort (ssl : Bool) (port : Str) : Str :=
  if ssl ∧ port = str "ircs" then str "994"
  else if ssl = false ∧ port = str "ircd" then str "6667"
  else port

/-- A server as it is loaded. -/
def TcpServerConfig.canonical (ts : TcpServerConfig) : TcpServerConfig :=
  { ts with port := canonicalPort ts.ssl ts.port }

theorem urlScheme_irc (rest : Str) : urlScheme (str "irc://" ++ rest) = some (false, rest) := by
  rw [urlScheme, if_pos (List.prefix_append _ _)]
  rfl

theorem urlScheme_ircs (rest : Str) : urlScheme (str "ircs://" ++ rest) = some (true, rest) := by
  have hother : ¬str "irc://" <+: str "ircs://" ++ rest := by
    rintro ⟨t, ht⟩
    have hfourth : some (chr ':') = some (chr 's') := congrArg (fun s : Str => s[3]?) ht
    exact absurd hfourth (by decide)
  rw [urlScheme, if_neg hother, if_pos (List.prefix_append _ _)]
  rfl

/-- A host that stays in one piece in a URL. -/
def PlainHost (host : Str) : Prop := chr ':' ∉ host ∧ chr '/' ∉ host

/-- A URL of a host alone. -/
theorem ircParseUrl_host {url host : Str} {ssl : Bool} (hscheme : urlScheme url = some (ssl, host))
    (h : PlainHost host) :
    ircParseUrl url = some (host, if ssl then str "994" else str "6667", ssl) := by
  have htake : host.takeWhile (· ≠ chr '/') = host :=
    List.takeWhile_eq_self_iff.mpr fun b hb => decide_eq_true fun e => h.2 (e ▸ hb)
  have hdrop : host.dropWhile (· ≠ chr ':') = [] := dropWhile_ne_eq_nil.mpr h.1
  rw [ircParseUrl, hscheme, Option.map_some]
  dsimp only
  rw [htake, hdrop]

/-- A URL of a host and a port, whatever the port is. -/
theorem ircParseUrl_port {url host port : Str} {ssl : Bool}
    (hscheme : urlScheme url = some (ssl, host ++ chr ':' :: port)) (h : PlainHost host) :
    ircParseUrl url = some (host, port, ssl) := by
  have hslash : ∀ b ∈ host, decide (b ≠ chr '/') = true := fun b hb => decide_eq_true fun e => h.2 (e ▸ hb)
  have hcolon : ∀ b ∈ host, decide (b ≠ chr ':') = true := fun b hb => decide_eq_true fun e => h.1 (e ▸ hb)
  have htake : (host ++ chr ':' :: port).takeWhile (· ≠ chr '/') =
      host ++ chr ':' :: port.takeWhile (· ≠ chr '/') := by
    rw [List.takeWhile_append_of_pos hslash, List.takeWhile_cons_of_pos (by decide)]
  have hdrop : ∀ t : Str, (host ++ chr ':' :: t).dropWhile (· ≠ chr ':') = chr ':' :: t := by
    intro t
    rw [List.dropWhile_append_of_pos hcolon, List.dropWhile_cons_of_neg (by decide)]
  have hhost : ∀ t : Str, (host ++ chr ':' :: t).takeWhile (· ≠ chr ':') = host := by
    intro t
    rw [List.takeWhile_append_of_pos hcolon, List.takeWhile_cons_of_neg (by decide), List.append_nil]
  rw [ircParseUrl, hscheme, Option.map_some]
  dsimp only
  rw [htake, hdrop]
  dsimp only
  rw [hhost, hdrop, List.drop_one, List.tail_cons]

/-- The URL of a server is read as its host, its port and its kind. -/
theorem ircParseUrl_url (h : PlainHost ts.host) :
    ircParseUrl ts.url = some (ts.host, canonicalPort ts.ssl ts.port, ts.ssl) := by
  obtain ⟨host, port, bindAddress, ssl, password⟩ := ts
  dsimp only at h ⊢
  rw [TcpServerConfig.url, ircCreateUrl]
  cases ssl with
  | true =>
      by_cases hport : port = str "ircs" ∨ port = str "994"
      · rw [if_pos ⟨rfl, hport⟩, ircParseUrl_host (urlScheme_ircs host) h]
        rcases hport with rfl | rfl <;> rfl
      · obtain ⟨hname, -⟩ := not_or.mp hport
        have htext : str "ircs" ++ str "://" ++ host ++ str ":" ++ port =
            str "ircs://" ++ (host ++ chr ':' :: port) := by simp [str]
        rw [if_neg fun hp => hport hp.2, if_neg fun hp => Bool.noConfusion hp.1, if_pos rfl, htext]
        simp only [canonicalPort, hname, and_false, Bool.true_eq_false, false_and, if_false]
        exact ircParseUrl_port (urlScheme_ircs _) h
  | false =>
      by_cases hport : port = str "ircd" ∨ port = str "6667"
      · rw [if_neg fun hp => Bool.noConfusion hp.1, if_pos ⟨rfl, hport⟩,
          ircParseUrl_host (urlScheme_irc host) h]
        rcases hport with rfl | rfl <;> rfl
      · obtain ⟨hname, -⟩ := not_or.mp hport
        have htext : str "irc" ++ str "://" ++ host ++ str ":" ++ port =
            str "irc://" ++ (host ++ chr ':' :: port) := by simp [str]
        rw [if_neg fun hp => Bool.noConfusion hp.1, if_neg fun hp => hport hp.2, if_neg Bool.false_ne_true,
          htext]
        simp only [canonicalPort, hname, and_false, Bool.false_eq_true, false_and, if_false]
        exact ircParseUrl_port (urlScheme_irc _) h

/-! ### What is saved -/

/-- The group of a server has its password and its bind address, and says nothing of `ssl`. -/
structure Stored (values : KeyFileValues V) (kf : KeyFile V) (ts : TcpServerConfig) : Prop where
  password : kf.value ts.url (str "password") = ts.password.map values.ofString
  bind : kf.value ts.url (str "bind") = ts.bindAddress.map values.ofString
  ssl : kf.value ts.url (str "ssl") = none

/-- A file with the same values in the group of a server. -/
theorem Stored.of_same {kf' : KeyFile V} (h : Stored values kf ts)
    (hsame : ∀ key, key ≠ str "servers" → kf'.value ts.url key = kf.value ts.url key) :
    Stored values kf' ts :=
  ⟨(hsame _ (by decide)).trans h.password, (hsame _ (by decide)).trans h.bind,
    (hsame _ (by decide)).trans h.ssl⟩

theorem value_configSaveTcpServer (kf : KeyFile V) (ts : TcpServerConfig) (group key : Str) :
    (configSaveTcpServer values kf ts).value group key =
      if group = ts.url ∧ key = str "bind" then ts.bindAddress.map values.ofString
      else if group = ts.url ∧ key = str "password" then ts.password.map values.ofString
      else kf.value group key := by
  rw [configSaveTcpServer, value_setOrRemove, value_setOrRemove]

/-- Saving a server stores it. -/
theorem configSaveTcpServer_stored (hssl : kf.value ts.url (str "ssl") = none) :
    Stored values (configSaveTcpServer values kf ts) ts where
  password := by
    rw [value_configSaveTcpServer, if_neg fun h => absurd h.2 (by decide), if_pos ⟨rfl, rfl⟩]
  bind := by
    rw [value_configSaveTcpServer, if_pos ⟨rfl, rfl⟩]
  ssl := by
    rw [value_configSaveTcpServer, if_neg fun h => absurd h.2 (by decide),
      if_neg fun h => absurd h.2 (by decide), hssl]

/-- The groups of other URLs stay as they are. -/
theorem value_save_other (hgroup : group ∉ servers.map TcpServerConfig.url) (kf : KeyFile V) (key : Str) :
    (servers.foldl (configSaveTcpServer values) kf).value group key = kf.value group key := by
  induction servers generalizing kf with
  | nil => rfl
  | cons ts servers ih =>
      rw [List.map_cons, List.mem_cons, not_or] at hgroup
      rw [List.foldl_cons, ih hgroup.2, value_configSaveTcpServer, if_neg fun h => hgroup.1 h.1,
        if_neg fun h => hgroup.1 h.1]

/-- Every server is stored in the end. -/
theorem save_stored (hurl : (servers.map TcpServerConfig.url).Nodup)
    (hssl : ∀ ts ∈ servers, kf.value ts.url (str "ssl") = none) :
    ∀ ts ∈ servers, Stored values (servers.foldl (configSaveTcpServer values) kf) ts := by
  induction servers generalizing kf with
  | nil => exact fun _ => nofun
  | cons ts servers ih =>
      rw [List.map_cons, List.nodup_cons] at hurl
      rw [List.foldl_cons, List.forall_mem_cons]
      constructor
      · exact (configSaveTcpServer_stored (hssl ts List.mem_cons_self)).of_same fun key _ =>
          value_save_other hurl.1 _ key
      · refine ih hurl.2 fun ts' hts' => ?_
        rw [value_configSaveTcpServer, if_neg fun h => absurd h.2 (by decide),
          if_neg fun h => absurd h.2 (by decide)]
        exact hssl ts' (List.mem_cons_of_mem _ hts')

/-! ### What is loaded -/

/-- A stored server is loaded, and its group removed. -/
theorem configLoadServer_stored (hv : Faithful values) (h : Stored values kf ts) (hhost : PlainHost ts.host)
    (loaded : List TcpServerConfig) :
    configLoadServer values (loaded, kf) ts.url = (loaded ++ [ts.canonical], kf.removeGroup ts.url) := by
  have hstring : ∀ o : Option Str, (o.map values.ofString).map values.getString = o := by
    intro o
    cases o with
    | none => rfl
    | some s => exact congrArg some (hv.string s)
  simp only [configLoadServer, ircParseUrl_url hhost, h.password, h.bind, h.ssl, hstring]
  rfl

theorem load_stored (hv : Faithful values) (hurl : (servers.map TcpServerConfig.url).Nodup)
    (hhost : ∀ ts ∈ servers, PlainHost ts.host) (h : ∀ ts ∈ servers, Stored values kf ts)
    (loaded : List TcpServerConfig) :
    ((servers.map TcpServerConfig.url).foldl (configLoadServer values) (loaded, kf)).1 =
      loaded ++ servers.map TcpServerConfig.canonical := by
  induction servers generalizing kf loaded with
  | nil => simp
  | cons ts servers ih =>
      rw [List.map_cons, List.nodup_cons] at hurl
      rw [List.map_cons, List.foldl_cons,
        configLoadServer_stored hv (h ts List.mem_cons_self) (hhost ts List.mem_cons_self),
        ih hurl.2 (fun ts' hts' => hhost ts' (List.mem_cons_of_mem _ hts')) fun ts' hts' => ?_]
      · simp
      · refine (h ts' (List.mem_cons_of_mem _ hts')).of_same fun key _ => ?_
        rw [KeyFile.value_removeGroup, if_neg]
        exact fun e => hurl.1 (e ▸ List.mem_map_of_mem hts')

/-- **Servers are loaded as they were saved**, in their order and with all they have, if no host has a colon or
a slash, their URLs are different, and the file has no groups of these names yet.  The name of the default port
is loaded as its number. -/
theorem configLoadServers_save (hv : Faithful values) (servers : List TcpServerConfig) (kf : KeyFile V)
    (groupname : Str) (hhost : ∀ ts ∈ servers, PlainHost ts.host)
    (hurl : (servers.map TcpServerConfig.url).Nodup) (hgroups : ∀ ts ∈ servers, ts.url ∉ kf.groups) :
    (configLoadServers values (configSaveTcpServers values servers kf groupname) groupname).1 =
      servers.map TcpServerConfig.canonical := by
  have hssl : ∀ ts ∈ servers, kf.value ts.url (str "ssl") = none := by
    intro ts hts
    have hnone : kf.lookup ts.url = none := by
      refine List.lookup_eq_none_iff.mpr fun g hg => bne_iff_ne.mpr fun e => hgroups ts hts ?_
      exact List.mem_map.mpr ⟨g, hg, e.symm⟩
    rw [KeyFile.value, hnone, Option.bind_none]
  rw [configLoadServers, configSaveTcpServers, KeyFile.value_setValue, if_pos ⟨rfl, rfl⟩]
  dsimp only
  rw [hv.stringList, load_stored hv hurl hhost, List.nil_append]
  intro ts hts
  refine (save_stored hurl hssl ts hts).of_same fun key hkey => ?_
  rw [KeyFile.value_setValue, if_neg fun h => hkey h.2]

end

/-- Two servers of a host, one of them with the name of its port and a password. -/
theorem configLoadServers_save_two :
    (configLoadServers listValues (configSaveTcpServers listValues
      [⟨str "irc.net", str "ircd", none, false, some (str "pw")⟩,
        ⟨str "irc.net", str "7000", some (str "10.0.0.1"), true, none⟩] [] (str "net")) (str "net")).1 =
      [⟨str "irc.net", str "6667", none, false, some (str "pw")⟩,
        ⟨str "irc.net", str "7000", some (str "10.0.0.1"), true, none⟩] := by
  have hv : Faithful listValues := ⟨fun _ => rfl, fun _ => rfl⟩
  have hhost : PlainHost (str "irc.net") := ⟨by decide, by decide⟩
  refine configLoadServers_save hv _ [] (str "net") ?_ (by decide +kernel) fun _ _ => List.not_mem_nil
  simp [hhost]

end Ctrlproxy.Config
