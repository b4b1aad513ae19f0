import Rollout.Proofs.Generation.Sound

/-!
# Proofs/Generation/Routes — what the maps of a built generation hold

`Host.Sound` says what the frontend phase asks of a host, and `checkHosts` accepts exactly the lists
of sound hosts under distinct names (`checkHosts_eq_ok_iff`).  The backend phase asks that every route
points at a declared backend (`checkRoutes_eq_ok_iff`).  Together these are the sound states
(`DesiredState.Sound`), and a generation is built exactly if its state is sound and it carries the
artifacts that the state describes (`isBuilt_iff_sound`).  The maps among them are two of requests, one
of server names, one of redirected hosts, and for every backend that is routed to, one that numbers its
routes (`IsBuilt.maps_eq`).
-/

namespace Rollout

/-! ## Checks of hosts -/

/-- **A host that passes its checks.** -/
structure Host.Sound (h : Host) : Prop where
  name : SoundName h.hostname
  paths : (h.routes.map (·.path)).Nodup
  tokens : ∀ r ∈ h.routes, tokenFault r.path = none
  root : h.passthrough = true → ∀ r ∈ h.routes, r.path = "/"

theorem Host.sound_iff {h : Host} : h.Sound ↔ SoundName h.hostname ∧ (h.routes.map (·.path)).Nodup ∧
    (∀ r ∈ h.routes, tokenFault r.path = none) ∧
      (h.passthrough = true → ∀ r ∈ h.routes, r.path = "/") :=
  ⟨fun h => ⟨h.name, h.paths, h.tokens, h.root⟩, fun h => ⟨h.1, h.2.1, h.2.2.1, h.2.2.2⟩⟩

instance (h : Host) : Decidable h.Sound := decidable_of_iff' _ Host.sound_iff

namespace Host

theorem mem_sortedRoutes {h : Host} {r : Route} : r ∈ h.sortedRoutes ↔ r ∈ h.routes :=
  List.mem_mergeSort

theorem checkDistinct_eq_ok_iff {host : String} : ∀ {routes : List Route} {seen : List String},
    checkDistinct host seen routes = .ok () ↔
      (routes.map (·.path)).Nodup ∧ ∀ r ∈ routes, r.path ∉ seen
  | [], seen => by simp [checkDistinct]
  | r :: rest, seen => by
      rw [checkDistinct, check_bind_eq_ok_iff, ensure_eq_ok_iff, checkDistinct_eq_ok_iff]
      simp only [Bool.not_eq_true', List.contains_eq_mem, decide_eq_false_iff_not, List.mem_cons,
        not_or, forall_eq_or_imp, List.map_cons, List.nodup_cons, List.mem_map, not_exists, not_and]
      constructor
      · rintro ⟨hseen, hnodup, hnew⟩
        exact ⟨⟨fun q hq => (hnew q hq).1, hnodup⟩, hseen, fun q hq => (hnew q hq).2⟩
      · rintro ⟨⟨hne, hnodup⟩, hseen, hnew⟩
        exact ⟨hseen, hnodup, fun q hq => ⟨hne q hq, hnew q hq⟩⟩

/-- **The paths of a host pass their check exactly if they are distinct.** -/
theorem checkPaths_eq_ok_iff {h : Host} : h.checkPaths = .ok () ↔ (h.routes.map (·.path)).Nodup := by
  rw [checkPaths, checkDistinct_eq_ok_iff]
  simp

/-- **The check of a host passes exactly the sound hosts under a new name.** -/
theorem check_eq_ok_iff {h : Host} {seen : List String} :
    h.check seen = .ok () ↔ h.Sound ∧ h.hostname ∉ seen := by
  have hblank : SoundName h.hostname → Text.isBlankText h.hostname = false := fun hs => by
    obtain ⟨c, hc⟩ := List.exists_mem_of_ne_nil _
      (fun heq => hs.ne_empty (String.toList_eq_nil_iff.mp heq))
    exact List.all_eq_false.mpr ⟨c, hc, by simp [hs.no_blank c hc]⟩
  rw [check, check_bind_eq_ok_iff, check_bind_eq_ok_iff, check_bind_eq_ok_iff, check_bind_eq_ok_iff,
    check_bind_eq_ok_iff, checkName_eq_ok_iff, checkPaths_eq_ok_iff, forM_eq_ok_iff]
  simp only [ensure_eq_ok_iff, mem_sortedRoutes, Bool.not_eq_true', Bool.or_eq_true,
    List.all_eq_true, beq_iff_eq, List.contains_eq_mem, decide_eq_false_iff_not]
  constructor
  · rintro ⟨-, hname, hseen, hpaths, htokens, hroot⟩
    refine ⟨⟨hname, hpaths, fun r hr => ?_, fun hpass => hroot.resolve_left (by simp [hpass])⟩, hseen⟩
    have htoken := htokens r hr
    cases hfault : tokenFault r.path with
    | none => rfl
    | some fault => simp [hfault] at htoken
  · rintro ⟨hs, hseen⟩
    refine ⟨hblank hs.name, hs.name, hseen, hs.paths, fun r hr => ?_, ?_⟩
    · rw [hs.tokens r hr]
    · cases hpass : h.passthrough with
      | false => exact Or.inl rfl
      | true => exact Or.inr (hs.root hpass)

end Host

/-- **The host check passes exactly the sound hosts under distinct names.** -/
theorem checkHosts_eq_ok_iff : ∀ {hosts : List Host} {seen : List String},
    checkHosts seen hosts = .ok () ↔
      (∀ h ∈ hosts, h.Sound) ∧ (hosts.map (·.hostname)).Nodup ∧ ∀ h ∈ hosts, h.hostname ∉ seen
  | [], seen => by simp [checkHosts]
  | h :: rest, seen => by
      rw [checkHosts, check_bind_eq_ok_iff, Host.check_eq_ok_iff, checkHosts_eq_ok_iff]
      simp only [List.mem_cons, forall_eq_or_imp, List.map_cons, List.nodup_cons, List.mem_map,
        not_or, not_exists, not_and]
      constructor
      · rintro ⟨⟨hsound, hseen⟩, hrest, hnodup, hnew⟩
        exact ⟨⟨hsound, hrest⟩, ⟨fun x hx => (hnew x hx).1, hnodup⟩, hseen, fun x hx => (hnew x hx).2⟩
      · rintro ⟨⟨hsound, hrest⟩, ⟨hne, hnodup⟩, hseen, hnew⟩
        exact ⟨⟨hsound, hseen⟩, hrest, hnodup, fun x hx => ⟨hne x hx, hnew x hx⟩⟩

theorem sortHosts_perm (hosts : List Host) : (sortHosts hosts).Perm hosts :=
  List.mergeSort_perm hosts _

/-! ## The entries that hosts describe -/

/-- A list without its repetitions has none. -/
theorem nodup_eraseDups {α : Type} [BEq α] [LawfulBEq α] : ∀ l : List α, l.eraseDups.Nodup
  | [] => by simp
  | a :: l => by
      rw [List.eraseDups_cons, List.nodup_cons]
      exact ⟨fun h => by simp [List.mem_eraseDups] at h, nodup_eraseDups _⟩
termination_by l => l.length
decreasing_by exact Nat.lt_succ_of_le (List.length_filter_le _ _)

namespace DesiredState

variable {d : DesiredState} {e : MapEntry}

theorem mem_terminatedHosts {h : Host} :
    h ∈ d.terminatedHosts ↔ h ∈ d.hosts ∧ h.passthrough = false := by
  rw [terminatedHosts, List.mem_filter, (sortHosts_perm d.hosts).mem_iff, Bool.not_eq_true']

/-- **The entries of hosts are their routes**, each under its key. -/
theorem mem_flatMap_entries {hosts : List Host} : e ∈ hosts.flatMap Host.entries ↔
    ∃ h ∈ hosts, ∃ r ∈ h.routes, (⟨h.key r, r.backend⟩ : MapEntry) = e := by
  simp only [List.mem_flatMap, Host.entries, List.mem_map, Host.mem_sortedRoutes]

theorem mem_httpEntries : e ∈ d.httpEntries ↔ ∃ h ∈ d.hosts, h.passthrough = false ∧
    h.isRedirected d.globals = false ∧ ∃ r ∈ h.routes, (⟨h.key r, r.backend⟩ : MapEntry) = e := by
  simp only [httpEntries, mem_flatMap_entries, List.mem_filter, mem_terminatedHosts,
    Bool.not_eq_true', and_assoc]

theorem mem_httpsEntries : e ∈ d.httpsEntries ↔ ∃ h ∈ d.hosts, h.passthrough = false ∧
    h.certificate.isSome = true ∧ ∃ r ∈ h.routes, (⟨h.key r, r.backend⟩ : MapEntry) = e := by
  simp only [httpsEntries, mem_flatMap_entries, List.mem_filter, mem_terminatedHosts, and_assoc]

theorem mem_routeEntries : e ∈ d.routeEntries ↔
    ∃ h ∈ d.hosts, ∃ r ∈ h.routes, (⟨h.key r, r.backend⟩ : MapEntry) = e := by
  simp only [routeEntries, mem_flatMap_entries, (sortHosts_perm d.hosts).mem_iff]

theorem mem_redirectEntries : e ∈ d.redirectEntries ↔ ∃ h ∈ d.hosts, h.passthrough = false ∧
    h.isRedirected d.globals = true ∧ (⟨h.hostname, "https"⟩ : MapEntry) = e := by
  simp only [redirectEntries, List.mem_map, List.mem_filter, mem_terminatedHosts, and_assoc]

theorem mem_passthroughEntries : e ∈ d.passthroughEntries ↔ ∃ h ∈ d.hosts, h.passthrough = true ∧
    ∃ r, h.sortedRoutes.head? = some r ∧ (⟨h.hostname, r.backend⟩ : MapEntry) = e := by
  simp only [passthroughEntries, List.mem_filterMap, List.mem_filter,
    (sortHosts_perm d.hosts).mem_iff, Option.map_eq_some_iff, and_assoc]

/-- **An entry that picks a backend is a route**, under its key or under the name of its host. -/
theorem exists_route_of_mem (he : e ∈ d.httpEntries ++ d.httpsEntries ++ d.passthroughEntries) :
    ∃ h ∈ d.hosts, ∃ r ∈ h.routes, (h.key r = e.key ∨ h.hostname = e.key) ∧ r.backend = e.value := by
  rcases List.mem_append.mp he with he | he
  · rcases List.mem_append.mp he with he | he
    · obtain ⟨h, hh, -, -, r, hr, rfl⟩ := mem_httpEntries.mp he
      exact ⟨h, hh, r, hr, Or.inl rfl, rfl⟩
    · obtain ⟨h, hh, -, -, r, hr, rfl⟩ := mem_httpsEntries.mp he
      exact ⟨h, hh, r, hr, Or.inl rfl, rfl⟩
  · obtain ⟨h, hh, -, r, hr, rfl⟩ := mem_passthroughEntries.mp he
    exact ⟨h, hh, r, Host.mem_sortedRoutes.mp (List.mem_of_mem_head? hr), Or.inr rfl, rfl⟩

/-! ## The numbered routes of a backend -/

/-- **A backend is routed to if a route points at it.** -/
theorem mem_routedBackends {id : String} :
    id ∈ d.routedBackends ↔ ∃ h ∈ d.hosts, ∃ r ∈ h.routes, r.backend = id := by
  simp only [routedBackends, List.mem_mergeSort, List.mem_eraseDups, List.mem_map, mem_routeEntries]
  constructor
  · rintro ⟨_, ⟨h, hh, r, hr, rfl⟩, rfl⟩
    exact ⟨h, hh, r, hr, rfl⟩
  · rintro ⟨h, hh, r, hr, rfl⟩
    exact ⟨_, ⟨h, hh, r, hr, rfl⟩, rfl⟩

theorem nodup_routedBackends (d : DesiredState) : d.routedBackends.Nodup :=
  (List.mergeSort_perm _ _).nodup_iff.mpr (nodup_eraseDups _)

/-- The keys of the map of a backend are those of the routes that point at it. -/
theorem keys_pathsMap (d : DesiredState) (id : String) : (d.pathsMap id).entries.map (·.key)
    = (d.routeEntries.filter (·.value == id)).map (·.key) := by
  have hfst := congrArg (List.map MapEntry.key)
    (List.zipIdx_map_fst 1 (d.routeEntries.filter (·.value == id)))
  rw [List.map_map] at hfst
  rw [pathsMap, List.map_map]
  exact hfst

/-- The values of the map of a backend are the numbers from one on. -/
theorem values_pathsMap (d : DesiredState) (id : String) : (d.pathsMap id).entries.map (·.value)
    = (List.range' 1 (d.pathsMap id).entries.length).map pathId := by
  have hsnd := congrArg (List.map pathId)
    (List.zipIdx_map_snd 1 (d.routeEntries.filter (·.value == id)))
  rw [List.map_map] at hsnd
  rw [pathsMap, List.map_map, List.length_map, List.length_zipIdx]
  exact hsnd

/-- An entry of the map of a backend is a route under its key, with a number. -/
theorem exists_route_of_mem_pathsMap {id : String} (he : e ∈ (d.pathsMap id).entries) :
    ∃ h ∈ d.hosts, ∃ r ∈ h.routes, h.key r = e.key ∧ ∃ n, pathId n = e.value := by
  have hkey : e.key ∈ (d.pathsMap id).entries.map (·.key) := List.mem_map_of_mem he
  have hvalue : e.value ∈ (d.pathsMap id).entries.map (·.value) := List.mem_map_of_mem he
  rw [keys_pathsMap] at hkey
  rw [values_pathsMap] at hvalue
  obtain ⟨e', he', hkey⟩ := List.mem_map.mp hkey
  obtain ⟨n, -, hn⟩ := List.mem_map.mp hvalue
  obtain ⟨h, hh, r, hr, rfl⟩ := mem_routeEntries.mp (List.mem_filter.mp he').1
  exact ⟨h, hh, r, hr, hkey, n, hn⟩

/-- **No two numbers share a path id.** -/
theorem pathId_injective : Function.Injective pathId :=
  fun _ _ h => Text.padded_injective 2 ((String.append_right_inj "path").mp h)

/-- **The map of a backend has one entry for every route that points at it.** -/
theorem keys_pathsMap_perm (d : DesiredState) (id : String) :
    ((d.pathsMap id).entries.map (·.key)).Perm
      (d.hosts.flatMap fun h => (h.routes.filter (·.backend == id)).map h.key) := by
  have hhost (h : Host) : ((h.entries.filter (·.value == id)).map (·.key)).Perm
      ((h.routes.filter (·.backend == id)).map h.key) := by
    have hentries : (h.entries.filter (·.value == id)).map (·.key)
        = (h.sortedRoutes.filter (·.backend == id)).map h.key := by
      rw [Host.entries, List.filter_map, List.map_map]
      rfl
    rw [hentries]
    exact ((List.mergeSort_perm h.routes _).filter _).map _
  rw [keys_pathsMap, routeEntries, List.filter_flatMap, List.map_flatMap]
  exact (sortHosts_perm d.hosts).flatMap fun h _ => hhost h

end DesiredState

/-! ## When the phases succeed -/

/-- The names of the maps that every built generation has. -/
def frontendMapNames : List String := [httpFrontendName ++ "_host", httpsFrontendName ++ "_host",
  "_front_sni_passthrough", "_front_redirect_https"]

namespace DesiredState

variable {d : DesiredState}

/-- The frontends that the hosts describe. -/
def describedFrontends (d : DesiredState) : FrontendGroup where
  http := ⟨httpFrontendName, d.globals.bindHttp, ⟨httpFrontendName ++ "_host", d.httpEntries⟩⟩
  https := ⟨httpsFrontendName, d.globals.bindHttps, ⟨httpsFrontendName ++ "_host", d.httpsEntries⟩⟩
  passthrough := ⟨"_front_sni_passthrough", d.passthroughEntries⟩
  redirect := ⟨"_front_redirect_https", d.redirectEntries⟩

/-- **When the frontend phase succeeds, and with what.** -/
theorem frontendGroup_eq_ok_iff {f : FrontendGroup} : d.frontendGroup = .ok f ↔
    (∀ h ∈ d.hosts, h.Sound) ∧ (d.hosts.map (·.hostname)).Nodup ∧ d.describedFrontends = f := by
  have hperm := sortHosts_perm d.hosts
  rw [frontendGroup, check_bind_eq_ok_iff, checkHosts_eq_ok_iff, (hperm.map _).nodup_iff]
  simp only [hperm.mem_iff, List.not_mem_nil, not_false_eq_true, implies_true, and_true, and_assoc,
    pure, Except.pure, Except.ok.injEq]
  rfl

/-- **Routes pass their check exactly if each points at a declared backend.** -/
theorem checkRoutes_eq_ok_iff : d.checkRoutes = .ok () ↔ ∀ h ∈ d.hosts,
    (h.routes.map (·.path)).Nodup ∧ ∀ r ∈ h.routes, d.declares r.backend = true := by
  rw [checkRoutes, forM_eq_ok_iff]
  simp only [(sortHosts_perm d.hosts).mem_iff, check_bind_eq_ok_iff, Host.checkPaths_eq_ok_iff,
    forM_eq_ok_iff, Host.mem_sortedRoutes, ensure_eq_ok_iff]

end DesiredState

/-! ## Built generations -/

/-- **A state that passes the checks of both phases.** -/
structure DesiredState.Sound (d : DesiredState) : Prop where
  hosts : ∀ h ∈ d.hosts, h.Sound
  hostnames : (d.hosts.map (·.hostname)).Nodup
  backends : ∀ b ∈ d.backends, b.Sound
  ids : (d.backends.map (·.id)).Nodup
  fallback : ∀ id ∈ d.defaultBackend, d.declares id = true
  routes : ∀ h ∈ d.hosts, ∀ r ∈ h.routes, d.declares r.backend = true

theorem DesiredState.sound_iff {d : DesiredState} : d.Sound ↔
    ((∀ h ∈ d.hosts, h.Sound) ∧ (d.hosts.map (·.hostname)).Nodup) ∧
      ((∀ b ∈ d.backends, b.Sound) ∧ (d.backends.map (·.id)).Nodup) ∧
        (∀ id ∈ d.defaultBackend, d.declares id = true) ∧
          ∀ h ∈ d.hosts, ∀ r ∈ h.routes, d.declares r.backend = true :=
  ⟨fun h => ⟨⟨h.hosts, h.hostnames⟩, ⟨h.backends, h.ids⟩, h.fallback, h.routes⟩,
    fun h => ⟨h.1.1, h.1.2, h.2.1.1, h.2.1.2, h.2.2.1, h.2.2.2⟩⟩

instance (d : DesiredState) : Decidable d.Sound := decidable_of_iff' _ DesiredState.sound_iff

/-- The state with the artifacts that it describes. -/
def DesiredState.described (d : DesiredState) : Generation where
  state := d
  frontends := some d.describedFrontends
  pathMaps := some (d.routedBackends.map d.pathsMap)

namespace Generation

variable {g : Generation}

/-- **A generation is built exactly if its state is sound and it carries what the state describes.** -/
theorem isBuilt_iff_sound : g.IsBuilt ↔ g.state.Sound ∧ g.state.described = g := by
  constructor
  · intro hg
    obtain ⟨⟨f, hf, hgf⟩, ms, hms, hgm⟩ := isBuilt_iff.mp hg
    obtain ⟨hhosts, hnames, rfl⟩ := DesiredState.frontendGroup_eq_ok_iff.mp hf
    obtain ⟨hbackends, hids, hdefault, hroutes, rfl⟩ := DesiredState.backendMaps_eq_ok_iff.mp hms
    refine ⟨⟨hhosts, hnames, hbackends, hids, hdefault, fun h hh =>
      (DesiredState.checkRoutes_eq_ok_iff.mp hroutes h hh).2⟩, ?_⟩
    rw [DesiredState.described, ← hgf, ← hgm]
  · rintro ⟨hs, hg⟩
    have hroutes : g.state.checkRoutes = .ok () := DesiredState.checkRoutes_eq_ok_iff.mpr
      fun h hh => ⟨(hs.hosts h hh).paths, hs.routes h hh⟩
    refine isBuilt_iff.mpr ⟨⟨g.state.describedFrontends, ?_, (congrArg Generation.frontends hg).symm⟩,
      g.state.routedBackends.map g.state.pathsMap, ?_, (congrArg Generation.pathMaps hg).symm⟩
    · exact DesiredState.frontendGroup_eq_ok_iff.mpr ⟨hs.hosts, hs.hostnames, rfl⟩
    · exact DesiredState.backendMaps_eq_ok_iff.mpr
        ⟨hs.backends, hs.ids, hs.fallback, hroutes, rfl⟩

namespace IsBuilt

/-- **The state of a built generation is sound.** -/
theorem sound_state (hg : g.IsBuilt) : g.state.Sound := (isBuilt_iff_sound.mp hg).1

theorem frontends_eq (hg : g.IsBuilt) : g.frontends = some g.state.describedFrontends :=
  (congrArg Generation.frontends (isBuilt_iff_sound.mp hg).2).symm

theorem pathMaps_eq (hg : g.IsBuilt) :
    g.pathMaps = some (g.state.routedBackends.map g.state.pathsMap) :=
  (congrArg Generation.pathMaps (isBuilt_iff_sound.mp hg).2).symm

/-- **The maps of a built generation are those that its state describes.** -/
theorem maps_eq (hg : g.IsBuilt) : g.maps =
    [g.state.describedFrontends.http.hostMap, g.state.describedFrontends.https.hostMap,
      g.state.describedFrontends.passthrough, g.state.describedFrontends.redirect]
    ++ g.state.routedBackends.map g.state.pathsMap := by
  rw [maps, hg.frontends_eq, hg.pathMaps_eq]
  rfl

/-- **Every route of a built generation points at a declared backend.** -/
theorem declared_of_route (hg : g.IsBuilt) {h : Host} (hh : h ∈ g.state.hosts) {r : Route}
    (hr : r ∈ h.routes) : r.backend ∈ g.backends.map (·.id) :=
  DesiredState.declares_iff.mp (hg.sound_state.routes h hh r hr)

/-- **The names of the maps**: four that are fixed, and one for every backend that is routed to. -/
theorem names_maps (hg : g.IsBuilt) :
    g.maps.map (·.name) = frontendMapNames ++ g.state.routedBackends.map pathsMapName := by
  rw [hg.maps_eq, List.map_append, List.map_map]
  rfl

variable {m : MapFile} {e : MapEntry}

/-- A map is one of the four, or that of a declared backend. -/
theorem name_of_mem_maps (hg : g.IsBuilt) (hm : m ∈ g.maps) :
    m.name ∈ frontendMapNames ∨ ∃ b ∈ g.backends, pathsMapName b.id = m.name := by
  have hname : m.name ∈ g.maps.map (·.name) := List.mem_map_of_mem hm
  rw [hg.names_maps, List.mem_append, List.mem_map] at hname
  refine hname.imp_right ?_
  rintro ⟨id, hid, hname⟩
  obtain ⟨h, hh, r, hr, rfl⟩ := DesiredState.mem_routedBackends.mp hid
  obtain ⟨b, hb, hbackend⟩ := List.mem_map.mp (hg.declared_of_route hh hr)
  exact ⟨b, hb, (congrArg pathsMapName hbackend).trans hname⟩

/-- **Every entry of a map is about a host.**  It stands for a route of the host under its key or under
the name of the host, it redirects the host, or it numbers a route. -/
theorem host_of_mem_maps (hg : g.IsBuilt) (hm : m ∈ g.maps) (he : e ∈ m.entries) :
    ∃ h ∈ g.state.hosts,
      (∃ r ∈ h.routes, (h.key r = e.key ∨ h.hostname = e.key) ∧ r.backend = e.value) ∨
      (h.hostname = e.key ∧ "https" = e.value) ∨
      ∃ r ∈ h.routes, h.key r = e.key ∧ ∃ n, DesiredState.pathId n = e.value := by
  have hkind : e ∈ g.state.httpEntries ++ g.state.httpsEntries ++ g.state.passthroughEntries ∨
      e ∈ g.state.redirectEntries ∨ ∃ id, e ∈ (g.state.pathsMap id).entries := by
    rw [hg.maps_eq, List.mem_append, List.mem_map] at hm
    simp only [List.mem_cons, List.not_mem_nil, or_false] at hm
    obtain (rfl | rfl | rfl | rfl) | ⟨id, -, rfl⟩ := hm
    · exact Or.inl (List.mem_append_left _ (List.mem_append_left _ he))
    · exact Or.inl (List.mem_append_left _ (List.mem_append_right _ he))
    · exact Or.inl (List.mem_append_right _ he)
    · exact Or.inr (Or.inl he)
    · exact Or.inr (Or.inr ⟨id, he⟩)
  rcases hkind with he | he | ⟨id, he⟩
  · obtain ⟨h, hh, hr⟩ := DesiredState.exists_route_of_mem he
    exact ⟨h, hh, Or.inl hr⟩
  · obtain ⟨h, hh, -, -, rfl⟩ := DesiredState.mem_redirectEntries.mp he
    exact ⟨h, hh, Or.inr (Or.inl ⟨rfl, rfl⟩)⟩
  · obtain ⟨h, hh, hr⟩ := DesiredState.exists_route_of_mem_pathsMap he
    exact ⟨h, hh, Or.inr (Or.inr hr)⟩

/-- The key of an entry is the name of a host, or that of a route. -/
theorem key_of_mem_maps (hg : g.IsBuilt) (hm : m ∈ g.maps) (he : e ∈ m.entries) :
    ∃ h ∈ g.state.hosts, h.hostname = e.key ∨ ∃ r ∈ h.routes, h.key r = e.key := by
  obtain ⟨h, hh, ⟨r, hr, hkey | hkey, -⟩ | ⟨hkey, -⟩ | ⟨r, hr, hkey, -⟩⟩ := hg.host_of_mem_maps hm he
  · exact ⟨h, hh, Or.inr ⟨r, hr, hkey⟩⟩
  · exact ⟨h, hh, Or.inl hkey⟩
  · exact ⟨h, hh, Or.inl hkey⟩
  · exact ⟨h, hh, Or.inr ⟨r, hr, hkey⟩⟩

/-- A map leads to declared backends, to the word of a redirect, or to numbers of routes. -/
theorem value_of_mem_maps (hg : g.IsBuilt) (hm : m ∈ g.maps) (he : e ∈ m.entries) :
    e.value ∈ g.backends.map (·.id) ∨ e.value = "https" ∨ ∃ n, DesiredState.pathId n = e.value := by
  obtain ⟨h, hh, ⟨r, hr, -, hvalue⟩ | ⟨-, hvalue⟩ | ⟨r, -, -, hvalue⟩⟩ := hg.host_of_mem_maps hm he
  · exact Or.inl (hvalue ▸ hg.declared_of_route hh hr)
  · exact Or.inr (Or.inl hvalue.symm)
  · exact Or.inr (Or.inr hvalue)

/-- **Every entry that picks a backend picks a declared one.** -/
theorem declared_of_mem (hg : g.IsBuilt) (he : e ∈ g.state.httpEntries ++ g.state.httpsEntries
    ++ g.state.passthroughEntries) : e.value ∈ g.backends.map (·.id) := by
  obtain ⟨h, hh, r, hr, -, hvalue⟩ := DesiredState.exists_route_of_mem he
  exact hvalue ▸ hg.declared_of_route hh hr

end IsBuilt

end Generation

/-- **A sound state describes a built generation.** -/
theorem DesiredState.Sound.isBuilt {d : DesiredState} (hs : d.Sound) : d.described.IsBuilt :=
  Generation.isBuilt_iff_sound.mpr ⟨hs, rfl⟩

/-! ## An example -/

/-- A host with a certificate, one without, and one whose stream is handed on. -/
def marketState : DesiredState where
  hosts := [
    { hostname := "blog.local", routes := [⟨"/", "web"⟩] },
    { hostname := "mail.local", routes := [⟨"/", "mail"⟩], passthrough := true },
    { hostname := "shop.local", certificate := some "shop.pem"
      routes := [⟨"/", "web"⟩, ⟨"/api", "api"⟩] }]
  backends := [
    { id := "web", servers := [{ name := "srv001", ip := "10.0.0.1", port := 8080 }] },
    { id := "api" },
    { id := "mail", mode := .tcp }]
  defaultBackend := some "web"

/-- The generation that is built from them. -/
def market : Generation := marketState.described

theorem isBuilt_market : market.IsBuilt := DesiredState.Sound.isBuilt (by decide +kernel)

/-- A backend of theirs that two hosts route to. -/
theorem mem_maps_market : marketState.pathsMap "web" ∈ market.maps := by
  have hrouted : "web" ∈ marketState.routedBackends := DesiredState.mem_routedBackends.mpr
    ⟨{ hostname := "blog.local", routes := [⟨"/", "web"⟩] }, by decide, ⟨"/", "web"⟩, by decide, rfl⟩
  exact List.mem_append_right _ (List.mem_map_of_mem hrouted)

end Rollout
