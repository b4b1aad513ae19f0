import Mathlib.Data.List.Perm.Basic
import Mathlib.Data.Prod.Lex
import Rollout.Proofs.Generation.Valid
import Rollout.Proofs.Text.Bytes

/-!
# Proofs/Generation/Order — every route once, and in order

The maps of the frontends are filled host by host and path by path.  What an entry stands for is a host
together with one of its routes, and `Precedes` orders these: by the name of the host, then the longer
path first, then by the path, everything byte by byte.  `DesiredState.orderedRoutes` lists the routes of
some of the hosts in this order, each once (`ValidHosts.lists`), and each of the maps is such a list
under its own flags (`frontends_list_routes`).
-/

namespace Rollout

/-! ## The order of hosts and routes -/

/-- **The name of a host comes before that of another**, byte by byte. -/
def Host.Precedes (h k : Host) : Prop := Text.bytes h.hostname < Text.bytes k.hostname

/-- **A route stands before another one of its host**: its path has more bytes, or as many and they come
first. -/
def Route.Precedes (r s : Route) : Prop :=
  (Text.bytes s.path).length < (Text.bytes r.path).length ∨
    (Text.bytes r.path).length = (Text.bytes s.path).length ∧ Text.bytes r.path < Text.bytes s.path

/-- **Routes of all hosts in order**: by their hosts, and within a host by their paths. -/
def Precedes (p q : Host × Route) : Prop :=
  p.1.Precedes q.1 ∨ p.1.hostname = q.1.hostname ∧ p.2.Precedes q.2

theorem Host.Precedes.asymm {h k : Host} (hk : h.Precedes k) : ¬ k.Precedes h := List.lt_asymm hk

theorem Route.Precedes.asymm {r s : Route} (hs : r.Precedes s) : ¬ s.Precedes r := by
  rintro (hr | ⟨hsize, hr⟩) <;> rcases hs with hs | ⟨hsize', hs⟩
  · exact Nat.lt_asymm hr hs
  · exact Nat.ne_of_lt hr hsize'
  · exact Nat.ne_of_lt hs hsize
  · exact List.lt_asymm hr hs

theorem Precedes.ne {p q : Host × Route} (h : Precedes p q) : p ≠ q := by
  rintro rfl
  rcases h with h | ⟨-, h | ⟨-, h⟩⟩
  · exact List.lt_irrefl _ h
  · exact Nat.lt_irrefl _ h
  · exact List.lt_irrefl _ h

theorem sorted_sortHosts (hosts : List Host) :
    (sortHosts hosts).Pairwise fun h k => decide (h.hostname ≤ k.hostname) = true :=
  pairwise_mergeSort_of_key (f := Host.hostname) (fun _ _ => decide_eq_true_iff) hosts

theorem pairwise_sortHosts {hosts : List Host} (hdistinct : (hosts.map (·.hostname)).Nodup) :
    (sortHosts hosts).Pairwise Host.Precedes := by
  have hne : (sortHosts hosts).Pairwise fun h k => h.hostname ≠ k.hostname :=
    List.pairwise_map.mp (((sortHosts_perm hosts).map _).nodup_iff.mpr hdistinct)
  exact ((sorted_sortHosts hosts).and hne).imp fun ⟨hle, hne⟩ =>
    Text.bytes_lt_of_lt (lt_of_le_of_ne (of_decide_eq_true hle) hne)

theorem Route.before_iff {r s : Route} : r.before s = true ↔
    s.path.utf8ByteSize < r.path.utf8ByteSize ∨
      r.path.utf8ByteSize = s.path.utf8ByteSize ∧ r.path ≤ s.path := by
  rw [before]
  split_ifs with hsize
  · simp [hsize]
  · rw [not_not] at hsize
    simp [hsize]

theorem Host.sorted_sortedRoutes (h : Host) :
    h.sortedRoutes.Pairwise fun r s => r.before s = true :=
  pairwise_mergeSort_of_key
    (f := fun r : Route => toLex (OrderDual.toDual r.path.utf8ByteSize, r.path))
    (fun r s => by rw [Route.before_iff, Prod.Lex.toLex_le_toLex]; exact Iff.rfl) h.routes

theorem Host.pairwise_sortedRoutes {h : Host} (hdistinct : (h.routes.map (·.path)).Nodup) :
    h.sortedRoutes.Pairwise Route.Precedes := by
  have hne : h.sortedRoutes.Pairwise fun r s => r.path ≠ s.path :=
    List.pairwise_map.mp (((List.mergeSort_perm h.routes _).map _).nodup_iff.mpr hdistinct)
  refine (h.sorted_sortedRoutes.and hne).imp fun {r s} ⟨hbefore, hne⟩ => ?_
  rw [Route.Precedes, Text.length_bytes, Text.length_bytes]
  exact (Route.before_iff.mp hbefore).imp id fun ⟨hsize, hle⟩ =>
    ⟨hsize, Text.bytes_lt_of_lt (lt_of_le_of_ne hle hne)⟩

/-! ## The routes of some of the hosts -/

/-- The entry of a map from requests to backends. -/
def routeEntry (p : Host × Route) : MapEntry := ⟨p.1.key p.2, p.2.backend⟩

namespace DesiredState

variable {d : DesiredState} {serves : Host → Bool}

/-- The routes of the hosts that satisfy a condition, each with its host. -/
def routesOf (d : DesiredState) (serves : Host → Bool) : List (Host × Route) :=
  (d.hosts.filter serves).flatMap fun h => h.routes.map (Prod.mk h)

/-- The same in order. -/
def orderedRoutes (d : DesiredState) (serves : Host → Bool) : List (Host × Route) :=
  ((sortHosts d.hosts).filter serves).flatMap fun h => h.sortedRoutes.map (Prod.mk h)

/-- **A list of exactly the routes of some hosts**, once each and in order. -/
structure Lists (d : DesiredState) (serves : Host → Bool) (ps : List (Host × Route)) : Prop where
  perm : ps.Perm (d.routesOf serves)
  order : ps.Pairwise Precedes

theorem mem_routesOf {p : Host × Route} :
    p ∈ d.routesOf serves ↔ p.1 ∈ d.hosts ∧ serves p.1 = true ∧ p.2 ∈ p.1.routes := by
  obtain ⟨h, r⟩ := p
  simp only [routesOf, List.mem_flatMap, List.mem_filter, List.mem_map, Prod.mk.injEq]
  constructor
  · rintro ⟨k, ⟨hk, hserves⟩, s, hs, rfl, rfl⟩
    exact ⟨hk, hserves, hs⟩
  · rintro ⟨hh, hserves, hr⟩
    exact ⟨h, ⟨hh, hserves⟩, r, hr, rfl, rfl⟩

theorem orderedRoutes_perm : (d.orderedRoutes serves).Perm (d.routesOf serves) :=
  ((sortHosts_perm d.hosts).filter serves).flatMap fun h _ => (List.mergeSort_perm h.routes _).map _

theorem mem_orderedRoutes {p : Host × Route} :
    p ∈ d.orderedRoutes serves ↔ p.1 ∈ d.hosts ∧ serves p.1 = true ∧ p.2 ∈ p.1.routes := by
  rw [orderedRoutes_perm.mem_iff, mem_routesOf]

/-- **Valid hosts are listed in order.** -/
theorem ValidHosts.lists (hv : d.ValidHosts) (serves : Host → Bool) :
    d.Lists serves (d.orderedRoutes serves) where
  perm := orderedRoutes_perm
  order := by
    refine List.pairwise_flatMap.mpr ⟨fun h hh => ?_, ?_⟩
    · have hmem : h ∈ d.hosts := (sortHosts_perm d.hosts).mem_iff.mp (List.mem_filter.mp hh).1
      exact List.pairwise_map.mpr
        ((Host.pairwise_sortedRoutes (hv.paths h hmem)).imp fun hrs => Or.inr ⟨rfl, hrs⟩)
    · refine ((pairwise_sortHosts hv.distinct).filter serves).imp fun hhk p hp q hq => ?_
      obtain ⟨r, -, rfl⟩ := List.mem_map.mp hp
      obtain ⟨s, -, rfl⟩ := List.mem_map.mp hq
      exact Or.inl hhk

/-- The entries of hosts, as those of their routes. -/
theorem map_routeEntry_orderedRoutes : (d.orderedRoutes serves).map routeEntry
    = ((sortHosts d.hosts).filter serves).flatMap Host.entries := by
  rw [orderedRoutes, List.map_flatMap]
  simp only [List.map_map]
  rfl

theorem httpsEntries_eq : d.httpsEntries =
    (d.orderedRoutes fun h => h.certificate.isSome && !h.passthrough).map routeEntry := by
  rw [map_routeEntry_orderedRoutes, httpsEntries, terminatedHosts, List.filter_filter]

theorem httpEntries_eq : d.httpEntries = (d.orderedRoutes fun h =>
    (h.certificate.isNone || !d.globals.sslRedirect) && !h.passthrough).map routeEntry := by
  rw [map_routeEntry_orderedRoutes, httpEntries, terminatedHosts, List.filter_filter]
  simp only [Host.isRedirected, Bool.not_and, Option.not_isSome]

/-- A valid host that is handed on has at most one route. -/
theorem ValidHosts.routes_of_passthrough (hv : d.ValidHosts) {h : Host} (hh : h ∈ d.hosts)
    (hpass : h.passthrough = true) : h.routes = [] ∨ ∃ r, h.routes = [r] ∧ r.path = "/" := by
  have hroot := hv.root h hh hpass
  have hdistinct := hv.paths h hh
  match hroutes : h.routes with
  | [] => exact Or.inl rfl
  | [r] => exact Or.inr ⟨r, rfl, hroot r (by simp [hroutes])⟩
  | r :: s :: rest =>
    have hr := hroot r (by simp [hroutes])
    have hs := hroot s (by simp [hroutes])
    simp [hroutes, hr, hs] at hdistinct

theorem ValidHosts.passthroughEntries_eq (hv : d.ValidHosts) : d.passthroughEntries =
    (d.orderedRoutes (·.passthrough)).map fun p => ⟨p.1.hostname, p.2.backend⟩ := by
  rw [passthroughEntries, orderedRoutes, List.filterMap_eq_flatMap_toList, List.map_flatMap]
  refine List.flatMap_congr fun h hh => ?_
  obtain ⟨hmem, hpass⟩ := List.mem_filter.mp hh
  rcases hv.routes_of_passthrough ((sortHosts_perm d.hosts).mem_iff.mp hmem) hpass with
    hroutes | ⟨r, hroutes, -⟩
  · rw [Host.sortedRoutes, hroutes, List.mergeSort_nil]
    rfl
  · rw [Host.sortedRoutes, hroutes, List.mergeSort_singleton]
    rfl

/-- Each host that is handed on stands behind one route, if it has any. -/
theorem ValidHosts.map_fst_routesOf (hv : d.ValidHosts) : (d.routesOf (·.passthrough)).map Prod.fst
    = d.hosts.filter fun h => !h.routes.isEmpty && h.passthrough := by
  rw [← List.filter_filter, ← List.filterMap_eq_filter, List.filterMap_eq_flatMap_toList, routesOf,
    List.map_flatMap]
  refine List.flatMap_congr fun h hh => ?_
  obtain ⟨hmem, hpass⟩ := List.mem_filter.mp hh
  rcases hv.routes_of_passthrough hmem hpass with hroutes | ⟨r, hroutes, -⟩ <;>
    simp [hroutes, Option.guard]

theorem redirectEntries_eq : d.redirectEntries = ((sortHosts d.hosts).filter fun h =>
    (h.certificate.isSome && d.globals.sslRedirect) && !h.passthrough).map
      fun h => ⟨h.hostname, "https"⟩ := by
  rw [redirectEntries, terminatedHosts, List.filter_filter]
  rfl

end DesiredState

/-! ## The maps of the frontends -/

/-- **What the maps of the frontends list**, where `https`, `http`, `streams` and `redirected` are the
routes and hosts behind their entries. -/
structure FrontendGroup.Lists (f : FrontendGroup) (d : DesiredState)
    (https http streams : List (Host × Route)) (redirected : List Host) : Prop where
  https_routes : d.Lists (fun h => h.certificate.isSome && !h.passthrough) https
  https_entries : f.https.hostMap.entries = https.map routeEntry
  http_routes :
    d.Lists (fun h => (h.certificate.isNone || !d.globals.sslRedirect) && !h.passthrough) http
  http_entries : f.http.hostMap.entries = http.map routeEntry
  redirect_hosts : redirected.Perm
    (d.hosts.filter fun h => (h.certificate.isSome && d.globals.sslRedirect) && !h.passthrough)
  redirect_order : redirected.Pairwise Host.Precedes
  redirect_entries : f.redirect.entries = redirected.map fun h => ⟨h.hostname, "https"⟩
  stream_routes : d.Lists (·.passthrough) streams
  stream_hosts : (streams.map Prod.fst).Perm
    (d.hosts.filter fun h => !h.routes.isEmpty && h.passthrough)
  stream_roots : ∀ p ∈ streams, p.2.path = "/"
  stream_entries : f.passthrough.entries = streams.map fun p => ⟨p.1.hostname, p.2.backend⟩
  /-- No host is in the map of plain requests and in that of redirected hosts. -/
  redirected_apart : ∀ p ∈ http, ∀ h ∈ redirected, p.1.hostname ≠ h.hostname
  /-- A host that is handed on is in no other map. -/
  passthrough_apart : ∀ k ∈ d.hosts, k.passthrough = true →
    (∀ p ∈ https ++ http, p.1.hostname ≠ k.hostname) ∧ ∀ h ∈ redirected, h.hostname ≠ k.hostname

/-- **The frontends of valid hosts list their routes.** -/
theorem DesiredState.ValidHosts.describedFrontends_lists {d : DesiredState} (hv : d.ValidHosts) :
    d.describedFrontends.Lists d
      (d.orderedRoutes fun h => h.certificate.isSome && !h.passthrough)
      (d.orderedRoutes fun h => (h.certificate.isNone || !d.globals.sslRedirect) && !h.passthrough)
      (d.orderedRoutes (·.passthrough))
      ((sortHosts d.hosts).filter fun h =>
        (h.certificate.isSome && d.globals.sslRedirect) && !h.passthrough) := by
  have hredirected {h : Host} {serves : Host → Bool}
      (hh : h ∈ (sortHosts d.hosts).filter serves) : h ∈ d.hosts ∧ serves h = true :=
    ⟨(sortHosts_perm d.hosts).mem_iff.mp (List.mem_filter.mp hh).1, (List.mem_filter.mp hh).2⟩
  have hinj {h k : Host} (hh : h ∈ d.hosts) (hk : k ∈ d.hosts) (hname : h.hostname = k.hostname) :
      h = k := List.inj_on_of_nodup_map hv.distinct hh hk hname
  -- The flags of the other maps all say that a host is not handed on.
  have hterminated {h k : Host} {flag : Bool} (hh : h ∈ d.hosts) (hk : k ∈ d.hosts)
      (hpass : k.passthrough = true) (hserves : (flag && !h.passthrough) = true) :
      h.hostname ≠ k.hostname := by
    rintro hname
    rw [hinj hh hk hname, hpass, Bool.not_true, Bool.and_false] at hserves
    exact Bool.false_ne_true hserves
  refine {
    https_routes := hv.lists _
    https_entries := DesiredState.httpsEntries_eq
    http_routes := hv.lists _
    http_entries := DesiredState.httpEntries_eq
    redirect_hosts := (sortHosts_perm d.hosts).filter _
    redirect_order := (pairwise_sortHosts hv.distinct).filter _
    redirect_entries := DesiredState.redirectEntries_eq
    stream_routes := hv.lists _
    stream_hosts := hv.map_fst_routesOf ▸ DesiredState.orderedRoutes_perm.map Prod.fst
    stream_roots := fun p hp => ?_
    stream_entries := hv.passthroughEntries_eq
    redirected_apart := fun p hp h hh hname => ?_
    passthrough_apart := fun k hk hpass => ⟨fun p hp => ?_, fun h hh => ?_⟩ }
  · obtain ⟨hmem, hpass, hr⟩ := mem_orderedRoutes.mp hp
    exact hv.root p.1 hmem hpass p.2 hr
  · obtain ⟨hmem, hplain, -⟩ := mem_orderedRoutes.mp hp
    obtain ⟨hmem', htls⟩ := hredirected hh
    rw [hinj hmem hmem' hname] at hplain
    cases hcert : h.certificate <;> simp_all
  · rcases List.mem_append.mp hp with hp | hp
    · obtain ⟨hmem, hflags, -⟩ := mem_orderedRoutes.mp hp
      exact hterminated hmem hk hpass hflags
    · obtain ⟨hmem, hflags, -⟩ := mem_orderedRoutes.mp hp
      exact hterminated hmem hk hpass hflags
  · exact hterminated (hredirected hh).1 hk hpass (hredirected hh).2

/-- **Every route once, and in order.**  If the frontend phase succeeds, then the map over TLS lists the
routes of the hosts with a certificate, that of plain requests those of the hosts without one, and of
all if requests are not redirected; that of redirected hosts lists the names of the hosts with a
certificate if they are.  A host that is handed on is in none of these: if it has a route, its name
leads to the backend of its root in the map of streams.  Each list goes by the names of the hosts, and
within a host from long paths to short ones. -/
theorem frontends_list_routes {g built : Generation} (h : g.buildFrontends = (.ok (), built)) :
    ∃ f https http streams redirected, built.frontends = some f ∧
      f.Lists g.state https http streams redirected := by
  obtain ⟨hv, rfl⟩ := Generation.eq_of_buildFrontends h
  exact ⟨_, _, _, _, _, rfl, hv.describedFrontends_lists⟩

/-- Three hosts, one for each way of being served. -/
theorem frontends_list_routes_market : market.buildFrontends = (.ok (), market) ∧
    ∃ f https http streams redirected, market.frontends = some f ∧
      f.Lists marketState https http streams redirected :=
  ⟨isBuilt_market.frontends, frontends_list_routes isBuilt_market.frontends⟩

end Rollout
