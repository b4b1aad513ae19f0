import Rollout.Proofs.Generation.Lookup
import Rollout.Proofs.Generation.Order
import Rollout.Proofs.Render.Files

/-!
# Proofs/Generation/Keys — when a map has a key twice

A key is the name of a host and a path, one behind the other.  The phases refuse a name that two hosts
have and a path that a host has twice, and no more: two hosts can still spell one key, as `shop.local`
with the path `-eu/` and `shop.local-eu` with `/` do (`keys_repeated`).  That is the only way in which a
map gets a key twice, and none where every path begins with a slash (`keys_distinct_iff_unshared`).
-/

namespace Rollout

namespace Generation

/-- **A route stands in a map under its key**: requests to its host are looked up there, or its backend
is the one whose routes are numbered there. -/
def Enters (g : Generation) (m : MapFile) (h : Host) (r : Route) : Prop :=
  m ∈ g.mapsServing h ∨ m = g.state.pathsMap r.backend

/-- **No two hosts spell one key** for the routes that they have in a map. -/
def Unshared (g : Generation) (m : MapFile) : Prop :=
  ∀ h ∈ g.state.hosts, ∀ r ∈ h.routes, g.Enters m h r →
    ∀ h' ∈ g.state.hosts, ∀ r' ∈ h'.routes, g.Enters m h' r' →
      h'.key r' = h.key r → h'.hostname = h.hostname

/-- **The routes that stand in a map**, each once, and in the order of their keys. -/
structure StandIn (g : Generation) (m : MapFile) (ps : List (Host × Route)) : Prop where
  nodup : ps.Nodup
  keys : m.entries.map (·.key) = ps.map fun p => p.1.key p.2
  mem_iff : ∀ p, p ∈ ps ↔ p.1 ∈ g.state.hosts ∧ p.2 ∈ p.1.routes ∧ g.Enters m p.1 p.2

variable {g : Generation} {m : MapFile} {ps : List (Host × Route)}

/-- **The keys are distinct exactly if no two hosts spell the same one.** -/
theorem StandIn.nodup_keys_iff (hps : g.StandIn m ps) (hg : g.IsBuilt) :
    (m.entries.map (·.key)).Nodup ↔ g.Unshared m := by
  rw [hps.keys, List.nodup_map_iff_inj_on hps.nodup]
  have hs := hg.sound_state
  constructor
  · intro hinj h hh r hr hm h' hh' r' hr' hm' hkey
    have heq := hinj ⟨h', r'⟩ ((hps.mem_iff _).mpr ⟨hh', hr', hm'⟩) ⟨h, r⟩
      ((hps.mem_iff _).mpr ⟨hh, hr, hm⟩) hkey
    rw [(Prod.mk.inj heq).1]
  · rintro hunshared ⟨h', r'⟩ hp' ⟨h, r⟩ hp hkey
    obtain ⟨hh, hr, hm⟩ := (hps.mem_iff _).mp hp
    obtain ⟨hh', hr', hm'⟩ := (hps.mem_iff _).mp hp'
    have hname := hunshared h hh r hr hm h' hh' r' hr' hm' hkey
    obtain rfl : h' = h := List.inj_on_of_nodup_map hs.hostnames hh' hh hname
    have hpath : r'.path = r.path := (String.append_right_inj h'.hostname).mp hkey
    exact Prod.ext rfl (List.inj_on_of_nodup_map (hs.hosts h' hh').paths hr' hr hpath)

/-! ## The routes of each map -/

theorem ne_pathsMap {d : DesiredState} (hname : m.name ∈ frontendMapNames) (id : String) :
    m ≠ d.pathsMap id := by
  rintro rfl
  exact pathsMapName_not_mem id hname

namespace IsBuilt

/-- The names of the maps that serve hosts. -/
theorem name_of_mem_mapsServing (hg : g.IsBuilt) {h : Host} (hm : m ∈ g.mapsServing h) :
    m.name ∈ [httpFrontendName ++ "_host", httpsFrontendName ++ "_host"] := by
  obtain ⟨-, ⟨-, rfl⟩ | ⟨-, rfl⟩⟩ := (mem_mapsServing_iff hg.frontends_eq).mp hm
  · exact List.mem_cons_of_mem _ List.mem_cons_self
  · exact List.mem_cons_self

/-- No route stands in the two maps that have the names of hosts for keys. -/
theorem not_enters (hg : g.IsBuilt)
    (hname : m.name ∈ ["_front_sni_passthrough", "_front_redirect_https"]) (h : Host) (r : Route) :
    ¬ g.Enters m h r := by
  have hapart : ∀ name ∈ ["_front_sni_passthrough", "_front_redirect_https"],
      name ∈ frontendMapNames ∧
        name ∉ [httpFrontendName ++ "_host", httpsFrontendName ++ "_host"] := by decide
  obtain ⟨hfixed, hother⟩ := hapart _ hname
  rintro (hm | hm)
  · exact hother (hg.name_of_mem_mapsServing hm)
  · exact ne_pathsMap hfixed r.backend hm

theorem nodup_orderedRoutes (hg : g.IsBuilt) (serves : Host → Bool) :
    (g.state.orderedRoutes serves).Nodup :=
  (hg.validHosts.lists serves).order.imp Precedes.ne

/-- A map that looks up the requests to some of the hosts. -/
theorem standIn_of_serves (hg : g.IsBuilt) {serves : Host → Bool}
    (hentries : m.entries = (g.state.orderedRoutes serves).map routeEntry)
    (hname : m.name ∈ frontendMapNames) (hserves : ∀ h, m ∈ g.mapsServing h ↔ serves h = true) :
    g.StandIn m (g.state.orderedRoutes serves) where
  nodup := hg.nodup_orderedRoutes serves
  keys := by
    rw [hentries, List.map_map]
    rfl
  mem_iff p := by
    rw [DesiredState.mem_orderedRoutes, Enters, or_iff_left (ne_pathsMap hname _), hserves]
    tauto

/-- The map that numbers the routes of a backend. -/
theorem standIn_pathsMap (hg : g.IsBuilt) (id : String) : g.StandIn (g.state.pathsMap id)
    ((g.state.orderedRoutes fun _ => true).filter fun p => p.2.backend == id) where
  nodup := (hg.nodup_orderedRoutes _).filter _
  keys := by
    have hall : g.state.routeEntries = (g.state.orderedRoutes fun _ => true).map routeEntry := by
      rw [DesiredState.map_routeEntry_orderedRoutes, List.filter_true, DesiredState.routeEntries]
    rw [DesiredState.keys_pathsMap, hall, List.filter_map, List.map_map]
    rfl
  mem_iff p := by
    have hserved : g.state.pathsMap id ∉ g.mapsServing p.1 := fun hm =>
      ne_pathsMap (List.mem_append_left [_, _] (hg.name_of_mem_mapsServing hm)) id rfl
    have hid : g.state.pathsMap id = g.state.pathsMap p.2.backend ↔ p.2.backend = id := by
      refine ⟨fun heq => (pathsMapName_injective (congrArg MapFile.name heq)).symm, fun heq => ?_⟩
      rw [heq]
    rw [List.mem_filter, DesiredState.mem_orderedRoutes, Enters, or_iff_right hserved, hid,
      beq_iff_eq]
    tauto

/-- **What stands in a map under the keys of routes.**  Nothing does in the two maps that have the names
of hosts for keys, and those have each name once. -/
theorem exists_standIn (hg : g.IsBuilt) (hm : m ∈ g.maps) : (∃ ps, g.StandIn m ps) ∨
    (m.entries.map (·.key)).Nodup ∧ ∀ h r, ¬ g.Enters m h r := by
  have hlists := hg.validHosts.describedFrontends_lists
  have hnames {hosts : List Host} {serves : Host → Bool}
      (hperm : hosts.Perm (g.state.hosts.filter serves)) : (hosts.map (·.hostname)).Nodup :=
    (hperm.map _).nodup_iff.mpr (hg.sound_state.hostnames.sublist (List.filter_sublist.map _))
  have hne := g.state.http_ne_https
  rw [hg.maps_eq, List.mem_append, List.mem_map] at hm
  simp only [List.mem_cons, List.not_mem_nil, or_false] at hm
  obtain (rfl | rfl | rfl | rfl) | ⟨id, -, rfl⟩ := hm
  · refine Or.inl ⟨_, hg.standIn_of_serves hlists.http_entries List.mem_cons_self fun h => ?_⟩
    rw [mem_mapsServing_iff hg.frontends_eq, ← Option.not_isSome, ← Bool.not_and, Bool.and_eq_true,
      Bool.not_eq_true', Bool.not_eq_true', and_comm, Host.isRedirected]
    simp only [hne, and_true, and_false, false_or]
  · refine Or.inl ⟨_, hg.standIn_of_serves hlists.https_entries
      (List.mem_cons_of_mem _ List.mem_cons_self) fun h => ?_⟩
    rw [mem_mapsServing_iff hg.frontends_eq]
    simp [hne.symm, and_comm]
  · refine Or.inr ⟨?_, hg.not_enters List.mem_cons_self⟩
    rw [hlists.stream_entries, List.map_map]
    have hnodup := hnames hlists.stream_hosts
    rwa [List.map_map] at hnodup
  · refine Or.inr ⟨?_, hg.not_enters (List.mem_cons_of_mem _ List.mem_cons_self)⟩
    rw [hlists.redirect_entries, List.map_map]
    exact hnames hlists.redirect_hosts
  · exact Or.inl ⟨_, hg.standIn_pathsMap id⟩

end IsBuilt

end Generation

/-- **When no two entries share a key.**  The keys of a map of a built generation are pairwise distinct
exactly if no two hosts with routes in the map spell the same key.  If every path begins with a slash,
they cannot. -/
theorem keys_distinct_iff_unshared {g : Generation} (hg : g.IsBuilt) {m : MapFile}
    (hm : m ∈ g.maps) :
    ((m.entries.map (·.key)).Nodup ↔ g.Unshared m) ∧
    (g.Rooted → (m.entries.map (·.key)).Nodup) := by
  have hiff : (m.entries.map (·.key)).Nodup ↔ g.Unshared m := by
    rcases hg.exists_standIn hm with ⟨ps, hps⟩ | ⟨hnodup, hnone⟩
    · exact hps.nodup_keys_iff hg
    · exact iff_of_true hnodup fun h _ r _ hr => absurd hr (hnone h r)
  refine ⟨hiff, fun hrooted => hiff.mpr fun h hh r hr _ h' hh' r' hr' _ hkey => ?_⟩
  have hs := hg.sound_state
  exact (Host.eq_of_key_eq (hs.hosts h hh) (hs.hosts h' hh') (hrooted h hh r hr)
    (hrooted h' hh' r' hr') hkey).1

/-- The routes of the backend that two hosts route to. -/
theorem keys_distinct_iff_unshared_market : market.IsBuilt ∧
    marketState.pathsMap "web" ∈ market.maps ∧ market.Rooted ∧
    ((marketState.pathsMap "web").entries.map (·.key)).Nodup := by
  have hrooted : market.Rooted := by decide +kernel
  exact ⟨isBuilt_market, mem_maps_market, hrooted,
    (keys_distinct_iff_unshared isBuilt_market mem_maps_market).2 hrooted⟩

/-- Two hosts that spell the same key. -/
def sharedState : DesiredState where
  hosts := [
    { hostname := "shop.local", routes := [⟨"-eu/", "web"⟩] },
    { hostname := "shop.local-eu", routes := [⟨"/", "eu"⟩] }]
  backends := [{ id := "web" }, { id := "eu" }]

/-- **A key is repeated.**  Both phases succeed, and the map of plain requests has one key twice: the
route of the second host stands behind one of the first that leads elsewhere. -/
theorem keys_repeated : ∃ g m, (Generation.ofState sharedState).build = (.ok (), g) ∧ m ∈ g.maps ∧
    m.entries = [⟨"shop.local-eu/", "web"⟩, ⟨"shop.local-eu/", "eu"⟩] ∧
    ¬ (m.entries.map (·.key)).Nodup := by
  have hsorted : sortHosts sharedState.hosts = sharedState.hosts :=
    List.mergeSort_of_pairwise (by decide +kernel)
  have hentries : sharedState.describedFrontends.http.hostMap.entries
      = [⟨"shop.local-eu/", "web"⟩, ⟨"shop.local-eu/", "eu"⟩] := by
    rw [DesiredState.describedFrontends, DesiredState.httpEntries, DesiredState.terminatedHosts,
      hsorted]
    decide +kernel
  have hsound : sharedState.Sound := by decide +kernel
  refine ⟨sharedState.described, sharedState.describedFrontends.http.hostMap,
    Generation.build_eq_ok_iff.mpr ⟨hsound.isBuilt, rfl⟩, List.mem_cons_self, hentries, ?_⟩
  rw [hentries]
  decide

end Rollout
