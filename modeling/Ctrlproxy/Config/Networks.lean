import Ctrlproxy.Config.Settings

/-!
# Config — the list of networks

`network_config_init` puts a network into the list, and `find_create_network_config` puts the one it
makes there once more.  So the list has every network once as long as every name of `autoconnect` is
answered to by a network of the files and groups (`loaded_nodup_iff`).
-/

namespace Ctrlproxy.Config
open Outcome

variable {V : Type}

/-! ### What the list is -/

/-- Every network in the list is there once, and where the heap has it. -/
structure Listed (cfg : CtrlproxyConfig V) : Prop where
  nodup : cfg.networks.Nodup
  lt : ∀ r ∈ cfg.networks, r < cfg.next
  heap : ∀ r ∈ cfg.networks, ∃ nc, cfg.heap r = some nc

/-- A network in the list answers to a name. -/
def Answered (cfg : CtrlproxyConfig V) (name : Str) : Prop :=
  ∃ r ∈ cfg.networks, ∃ nc, cfg.heap r = some nc ∧ nc.answers name = true

section
variable {values : KeyFileValues V} {cfg cfg' : CtrlproxyConfig V} {name : Str}
  {channelKeys : List KeyfileEntry}

theorem Listed.init (h : Listed cfg) (n : NetworkConfig V) : Listed (networkConfigInit cfg n) where
  nodup := by
    refine List.nodup_append.mpr ⟨h.nodup, List.pairwise_singleton _ _, ?_⟩
    rintro a ha b hb rfl
    rw [List.mem_singleton] at hb
    exact absurd (h.lt a ha) (hb ▸ Nat.lt_irrefl _)
  lt := by
    intro r hr
    rcases List.mem_append.mp hr with hr | hr
    · exact (h.lt r hr).trans (Nat.lt_succ_self _)
    · rw [List.mem_singleton.mp hr]
      exact Nat.lt_succ_self _
  heap := by
    intro r hr
    rcases List.mem_append.mp hr with hr | hr
    · obtain ⟨nc, hnc⟩ := h.heap r hr
      exact ⟨nc, (Heap.set_other (h.lt r hr).ne).trans hnc⟩
    · rw [List.mem_singleton.mp hr]
      exact ⟨n, Heap.set_same _ _ _⟩

theorem Listed.dirEntry (h : Listed cfg) (file : Str × Option (KeyFile V)) :
    Ensures (configLoadDirEntry values channelKeys cfg file) Listed fun _ => True := by
  unfold configLoadDirEntry
  split
  · exact h
  · cases file.2 with
    | none => trivial
    | some kf =>
        refine Ensures.bind (Q := fun _ => True) ?_ fun r _ => h.init _
        cases configLoadNetworkKeyfileGroup values file.1 kf (str "global") channelKeys <;> trivial

theorem Listed.group (h : Listed cfg) (group : Str) :
    Ensures (configLoadGroup values channelKeys cfg group) Listed fun _ => True := by
  unfold configLoadGroup
  split
  · exact h
  · refine Ensures.bind (Q := fun _ => True) ?_ fun r _ => ?_
    · cases configLoadNetworkKeyfileGroup values group cfg.keyfile group channelKeys <;> trivial
    · have hlisted : Listed { cfg with keyfile := r.2 } := ⟨h.nodup, h.lt, h.heap⟩
      exact hlisted.init r.1

/-- Every file and every group is put into the list once. -/
theorem configuredNetworks_listed {lines : FileLines} {d : ConfigDir V} {kf : KeyFile V} :
    Ensures (configuredNetworks values lines d kf) Listed fun _ => True := by
  have start : Listed (⟨[], Heap.empty, 0, consumeSettings values kf⟩ : CtrlproxyConfig V) :=
    ⟨List.nodup_nil, nofun, nofun⟩
  refine Ensures.bind (Ensures.foldlM (fun _ file _ h => h.dirEntry file) start) fun cfg h => ?_
  exact Ensures.foldlM (fun _ group _ h => h.group group) h

/-! ### Finding and creating -/

/-- The search finds a network that answers, if one does. -/
theorem Listed.find (h : Listed cfg) (name : Str) :
    (∃ r ∈ cfg.networks, findFirst (fun r => (cfg.network r).map (·.answers name)) cfg.networks =
      .ok (some r)) ∧ Answered cfg name ∨
    findFirst (fun r => (cfg.network r).map (·.answers name)) cfg.networks = .ok none ∧
      ¬Answered cfg name := by
  have htest : ∀ r ∈ cfg.networks, (cfg.network r).map (·.answers name) =
      .ok ((cfg.heap r).any (·.answers name)) := by
    intro r hr
    obtain ⟨nc, hnc⟩ := h.heap r hr
    rw [CtrlproxyConfig.network, hnc]
    rfl
  rw [findFirst_eq_find? htest]
  cases hfind : cfg.networks.find? fun r => (cfg.heap r).any (·.answers name) with
  | some r =>
      have hr := List.mem_of_find?_eq_some hfind
      have hans := List.find?_some hfind
      obtain ⟨nc, hnc⟩ := h.heap r hr
      rw [hnc] at hans
      exact .inl ⟨⟨r, hr, rfl⟩, r, hr, nc, hnc, hans⟩
  | none =>
      refine .inr ⟨rfl, ?_⟩
      rintro ⟨r, hr, nc, hnc, hans⟩
      have hno := List.find?_eq_none.mp hfind r hr
      rw [hnc] at hno
      exact hno hans

/-- Setting `autoconnect` leaves the list, and what the networks answer to. -/
theorem Listed.autoconnect (h : Listed cfg) {r : Ref} {nc : NetworkConfig V} (hr : cfg.heap r = some nc) :
    Listed { cfg with heap := cfg.heap.set r { nc with autoconnect := true } } ∧
      ∀ name, Answered { cfg with heap := cfg.heap.set r { nc with autoconnect := true } } name ↔
        Answered cfg name := by
  have hheap : ∀ x nx, cfg.heap x = some nx → ∃ nx', cfg.heap.set r { nc with autoconnect := true } x =
      some nx' ∧ ∀ name, nx'.answers name = nx.answers name := by
    intro x nx hx
    by_cases hxr : x = r
    · subst hxr
      rw [hr] at hx
      cases hx
      exact ⟨_, Heap.set_same _ _ _, fun _ => rfl⟩
    · exact ⟨nx, by rw [Heap.set_other hxr, hx], fun _ => rfl⟩
  refine ⟨⟨h.nodup, h.lt, fun x hx => ?_⟩, fun name => ⟨?_, ?_⟩⟩
  · obtain ⟨nx, hnx⟩ := h.heap x hx
    obtain ⟨nx', hnx', -⟩ := hheap x nx hnx
    exact ⟨nx', hnx'⟩
  · rintro ⟨x, hx, nx', hnx', hans⟩
    obtain ⟨nx, hnx⟩ := h.heap x hx
    obtain ⟨nx'', hnx'', hsame⟩ := hheap x nx hnx
    cases hnx''.symm.trans hnx'
    exact ⟨x, hx, nx, hnx, by rw [← hsame, hans]⟩
  · rintro ⟨x, hx, nx, hnx, hans⟩
    obtain ⟨nx', hnx', hsame⟩ := hheap x nx hnx
    exact ⟨x, hx, nx', hnx', by rw [hsame, hans]⟩

/-- The list only grows. -/
theorem configLoadAutoconnect_grows (cfg : CtrlproxyConfig V) (name : Str) :
    Ensures (configLoadAutoconnect cfg name) (fun cfg' => cfg.networks <+: cfg'.networks)
      fun _ => True := by
  unfold configLoadAutoconnect
  refine Ensures.bind (Q := fun o => ∀ r ∈ o, cfg.networks <+: r.1.networks) ?_ ?_
  · unfold findCreateNetworkConfig
    refine Ensures.bind (Q := fun _ => True) ?_ ?_
    · cases findFirst (fun r => (cfg.network r).map (·.answers name)) cfg.networks <;> trivial
    · rintro (_ | r) -
      · cases ircParseUrl name with
        | none => exact nofun
        | some u =>
            rintro r ⟨⟩
            exact ⟨[cfg.next, cfg.next], by simp [networkConfigInit]⟩
      · rintro r ⟨⟩
        exact List.prefix_rfl
  · rintro (_ | ⟨cfg', r⟩) h
    · trivial
    · dsimp only
      cases cfg'.network r with
      | error e => trivial
      | ok nc => exact h _ rfl

/-- A name that a network answers to leaves the list as it is; another puts its network there twice. -/
theorem Listed.load (h : Listed cfg) (name : Str) :
    Ensures (configLoadAutoconnect cfg name) (fun cfg' =>
      Answered cfg name ∧ cfg'.networks = cfg.networks ∧ Listed cfg' ∧
        (∀ other, Answered cfg' other ↔ Answered cfg other) ∨
      ¬Answered cfg name ∧ ¬cfg'.networks.Nodup) fun _ => True := by
  rcases h.find name with ⟨⟨r, hr, hfind⟩, hans⟩ | ⟨hfind, hans⟩
  · obtain ⟨nc, hnc⟩ := h.heap r hr
    obtain ⟨hlisted, hsame⟩ := h.autoconnect hnc
    have hrun : configLoadAutoconnect cfg name =
        .ok { cfg with heap := cfg.heap.set r { nc with autoconnect := true } } := by
      rw [configLoadAutoconnect, findCreateNetworkConfig, hfind]
      simp only [ok_bind, pure_eq_ok]
      rw [CtrlproxyConfig.network, hnc]
      rfl
    rw [hrun]
    exact .inl ⟨hans, rfl, hlisted, hsame⟩
  · rw [configLoadAutoconnect, findCreateNetworkConfig, hfind]
    simp only [ok_bind]
    cases ircParseUrl name with
    | none => trivial
    | some u =>
        simp only [pure_eq_ok, ok_bind]
        rw [CtrlproxyConfig.network]
        dsimp only [networkConfigInit]
        rw [Heap.set_same]
        refine .inr ⟨hans, fun hnodup => ?_⟩
        have := (List.nodup_append.mp hnodup).2.2 cfg.next
          (List.mem_append_right _ List.mem_cons_self) cfg.next List.mem_cons_self
        exact this rfl

theorem configLoadAutoconnects_cases (h : Listed cfg) (names : List Str) :
    Ensures (names.foldlM configLoadAutoconnect cfg) (fun cfg' =>
      cfg'.networks.Nodup ↔ ∀ name ∈ names, Answered cfg name) fun _ => True := by
  induction names generalizing cfg with
  | nil => exact ⟨fun _ => nofun, fun _ => h.nodup⟩
  | cons name names ih =>
      rw [List.foldlM_cons]
      refine (h.load name).bind fun cfg₁ hload => ?_
      rcases hload with ⟨hans, hsame, hlisted, hothers⟩ | ⟨hans, hdup⟩
      · refine (ih hlisted).imp fun cfg' hiff => ?_
        simp only [hiff, hothers, List.forall_mem_cons, hans, true_and]
      · have hgrows : Ensures (names.foldlM configLoadAutoconnect cfg₁)
            (fun cfg' => cfg₁.networks <+: cfg'.networks) fun _ => True :=
          Ensures.foldlM (fun b other _ hb => (configLoadAutoconnect_grows b other).imp
            fun _ h => hb.trans h) List.prefix_rfl
        refine hgrows.imp fun cfg' hpre => ⟨fun hnodup => ?_, fun hall => ?_⟩
        · exact absurd (hnodup.sublist hpre.sublist) hdup
        · exact absurd (hall name List.mem_cons_self) hans

/-- **Every network is in the list once** exactly when every name of `autoconnect` is answered to by a
network that the files and groups are read as. -/
theorem loaded_nodup_iff {lines : FileLines} {d : ConfigDir V}
    (h : loadConfiguration values lines d = .ok (some cfg)) :
    ∃ kf cfg₀, d.config = some kf ∧ configuredNetworks values lines d kf = .ok cfg₀ ∧
      (cfg.networks.Nodup ↔ ∀ name ∈ autoconnectList values cfg₀.keyfile, Answered cfg₀ name) := by
  unfold loadConfiguration at h
  cases hkf : d.config with
  | none =>
      rw [hkf] at h
      cases h
  | some kf =>
      rw [hkf] at h
      obtain ⟨cfg₀, hconf, h⟩ := bind_eq_ok h
      have hlisted := configuredNetworks_listed.of_ok hconf
      split at h
      · obtain ⟨cfg', hauto, h⟩ := bind_eq_ok h
        cases h
        exact ⟨kf, cfg₀, rfl, hconf, (configLoadAutoconnects_cases hlisted _).of_ok hauto⟩
      · cases h

end

/-! ### Two directories -/

/-- Values as the lists of their elements. -/
def listValues : KeyFileValues (List Str) where
  getString v := v.headD []
  getStringList v := v
  getBoolean v := v = [str "true"]
  getInteger v := atoi (v.headD [])
  ofString s := [s]
  ofStringList v := v
  ofInteger i := [decimalInt i]

/-- A directory with one network in its main file, and the name of one to connect to. -/
def oneNetwork (name : String) : ConfigDir (List Str) where
  config := some [(str "global", [(str "autoconnect", [str name])]),
    (str "net", [(str "servers", [str "irc://irc.net"])])]
  networks := []
  keys := none

/-- The network is answered to by its host. -/
theorem loaded_nodup_iff_host : ∃ cfg,
    loadConfiguration listValues asciiLines (oneNetwork "irc.net") = .ok (some cfg) ∧
      cfg.networks = [0] ∧ ∃ kf cfg₀, (oneNetwork "irc.net").config = some kf ∧
        configuredNetworks listValues asciiLines (oneNetwork "irc.net") kf = .ok cfg₀ ∧
          (cfg.networks.Nodup ↔
            ∀ name ∈ autoconnectList listValues cfg₀.keyfile, Answered cfg₀ name) := by
  have run : (loadConfiguration listValues asciiLines (oneNetwork "irc.net")).map
      (fun r => r.map fun cfg => cfg.networks) = .ok (some [0]) := by decide +kernel
  obtain ⟨r, hr, hmap⟩ := map_eq_ok run
  obtain ⟨cfg, rfl, hnetworks⟩ := Option.map_eq_some_iff.mp hmap
  exact ⟨cfg, hr, hnetworks, loaded_nodup_iff hr⟩

/-- A network that is only named by `autoconnect` is in the list twice. -/
theorem implicit_network_listed_twice : ¬∀ (V : Type) (values : KeyFileValues V) (lines : FileLines)
    (d : ConfigDir V) (cfg : CtrlproxyConfig V),
    loadConfiguration values lines d = .ok (some cfg) → cfg.networks.Nodup := by
  intro h
  have run : (loadConfiguration listValues asciiLines (oneNetwork "other")).map
      (fun r => r.map fun cfg => cfg.networks) = .ok (some [0, 1, 1]) := by decide +kernel
  obtain ⟨r, hr, hmap⟩ := map_eq_ok run
  obtain ⟨cfg, rfl, hnetworks⟩ := Option.map_eq_some_iff.mp hmap
  have hnodup := h _ _ _ _ _ hr
  rw [hnetworks] at hnodup
  exact absurd hnodup (by decide)

end Ctrlproxy.Config
