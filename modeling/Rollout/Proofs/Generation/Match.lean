import Rollout.Proofs.Generation.Lookup
import Rollout.Proofs.Generation.Order

/-!
# Proofs/Generation/Match — the first match of a host is its longest

In a map that serves a host, the entries of the host stand together (`ValidHosts.exists_block`), and
within them long paths come before short ones.  Of the paths that a request begins with no two are of
one length (`Text.eq_of_prefix`), so the first of them is the longest, and no other is as long
(`first_match_is_longest`).
-/

namespace Rollout

/-! ## Paths that a request begins with -/

/-- Does a request for a path begin with the path of a route? -/
def Route.begins (q : String) (r : Route) : Bool := r.path.toList.isPrefixOf q.toList

theorem Route.begins_iff {q : String} {r : Route} :
    r.begins q = true ↔ r.path.toList <+: q.toList := List.isPrefixOf_iff_prefix

namespace Host

variable {h : Host} {q : String} {r : Route}

/-- **The longest path of a host that a request begins with**, and the only one of that length. -/
structure LongestMatch (h : Host) (q : String) (r : Route) : Prop where
  mem : r ∈ h.routes
  begins : r.path.toList <+: q.toList
  longest : ∀ s ∈ h.routes, s.path.toList <+: q.toList → s ≠ r →
    (Text.bytes s.path).length < (Text.bytes r.path).length

theorem LongestMatch.unique {s : Route} (hr : h.LongestMatch q r) (hs : h.LongestMatch q s) :
    s = r := by
  by_contra hne
  have hlt := hr.longest s hs.mem hs.begins hne
  exact absurd (hs.longest r hr.mem hr.begins (Ne.symm hne)) (Nat.lt_asymm hlt)

/-- The first route in order that a request begins with is the longest. -/
theorem longestMatch_of_find? (hdistinct : (h.routes.map (·.path)).Nodup)
    (hfound : h.sortedRoutes.find? (Route.begins q) = some r) : h.LongestMatch q r := by
  obtain ⟨hbegins, earlier, later, hsplit, hfirst⟩ := List.find?_eq_some_iff_append.mp hfound
  have hordered := pairwise_sortedRoutes hdistinct
  rw [hsplit, List.pairwise_append, List.pairwise_cons] at hordered
  refine ⟨mem_sortedRoutes.mp (List.mem_of_find?_eq_some hfound), Route.begins_iff.mp hbegins, ?_⟩
  intro s hs hprefix hne
  have hmem : s ∈ earlier ++ r :: later := hsplit ▸ mem_sortedRoutes.mpr hs
  rcases List.mem_append.mp hmem with hearlier | hlater
  · have hmissed := hfirst s hearlier
    rw [Route.begins_iff.mpr hprefix] at hmissed
    exact absurd hmissed (by decide)
  · have hafter : s ∈ later := (List.mem_cons.mp hlater).resolve_left hne
    rcases hordered.2.1.1 s hafter with hlonger | ⟨hlength, hlt⟩
    · exact hlonger
    · have hpath := Text.eq_of_prefix (Route.begins_iff.mp hbegins) hprefix hlength
      exact absurd hlt (hpath ▸ List.lt_irrefl _)

/-- **Scanning the routes in order finds the longest match.** -/
theorem find?_begins_eq_some_iff (hdistinct : (h.routes.map (·.path)).Nodup) :
    h.sortedRoutes.find? (Route.begins q) = some r ↔ h.LongestMatch q r := by
  refine ⟨longestMatch_of_find? hdistinct, fun hr => ?_⟩
  cases hfound : h.sortedRoutes.find? (Route.begins q) with
  | none =>
    exact absurd (Route.begins_iff.mpr hr.begins)
      (List.find?_eq_none.mp hfound r (mem_sortedRoutes.mpr hr.mem))
  | some s => rw [hr.unique (longestMatch_of_find? hdistinct hfound)]

/-- **It finds nothing exactly if there is no match.** -/
theorem find?_begins_eq_none_iff : h.sortedRoutes.find? (Route.begins q) = none ↔
    ∀ r ∈ h.routes, ¬ r.path.toList <+: q.toList := by
  simp only [List.find?_eq_none, mem_sortedRoutes, Route.begins_iff]

end Host

/-! ## The entries of a host -/

/-- **The routes of a host stand together**, between routes of other hosts. -/
theorem DesiredState.ValidHosts.exists_block {d : DesiredState} (hv : d.ValidHosts)
    {serves : Host → Bool} {h : Host} (hh : h ∈ d.hosts) (hserves : serves h = true) :
    ∃ before after, d.orderedRoutes serves = before ++ h.sortedRoutes.map (Prod.mk h) ++ after ∧
      ∀ p ∈ before ++ after, p.1 ∈ d.hosts ∧ p.2 ∈ p.1.routes ∧ p.1.hostname ≠ h.hostname := by
  obtain ⟨hosts, hosts', hsplit⟩ :=
    List.append_of_mem ((sortHosts_perm d.hosts).mem_iff.mpr hh)
  have hperm : (h :: (hosts ++ hosts')).Perm d.hosts :=
    List.perm_middle.symm.trans (hsplit ▸ sortHosts_perm d.hosts)
  have hnames : h.hostname ∉ (hosts ++ hosts').map (·.hostname) :=
    (List.nodup_cons.mp ((hperm.map _).nodup_iff.mpr hv.distinct)).1
  refine ⟨(hosts.filter serves).flatMap fun k => k.sortedRoutes.map (Prod.mk k),
    (hosts'.filter serves).flatMap fun k => k.sortedRoutes.map (Prod.mk k), ?_, ?_⟩
  · rw [orderedRoutes, hsplit, List.filter_append, List.filter_cons_of_pos hserves,
      List.flatMap_append, List.flatMap_cons, List.append_assoc]
  · intro p hp
    rw [← List.flatMap_append, ← List.filter_append] at hp
    obtain ⟨k, hk, hp⟩ := List.mem_flatMap.mp hp
    obtain ⟨r, hr, rfl⟩ := List.mem_map.mp hp
    have hk : k ∈ hosts ++ hosts' := (List.mem_filter.mp hk).1
    exact ⟨hperm.mem_iff.mp (List.mem_cons_of_mem _ hk), Host.mem_sortedRoutes.mp hr,
      fun hname => hnames (List.mem_map.mpr ⟨k, hk, hname⟩)⟩

/-- **First match is longest match.**  If the frontend phase succeeds, then a host that is not handed on
is served by a map.  In every map that serves it, its entries are one block with an entry for each of its
routes, and all others are those of other hosts.  Whatever path is requested, the first route of the
block that the request begins with is the longest of the host, and no other is as long; if the request
begins with none of them, none is found. -/
theorem first_match_is_longest {g built : Generation} (hbuilt : g.buildFrontends = (.ok (), built))
    {h : Host} (hh : h ∈ g.state.hosts) (hterm : h.passthrough = false) :
    built.mapsServing h ≠ [] ∧ ∀ m ∈ built.mapsServing h,
      ∃ (before after : List (Host × Route)) (block : List Route),
        m.entries = before.map routeEntry ++ block.map (fun r => ⟨h.key r, r.backend⟩)
          ++ after.map routeEntry ∧
        (∀ p ∈ before ++ after,
          p.1 ∈ g.state.hosts ∧ p.2 ∈ p.1.routes ∧ p.1.hostname ≠ h.hostname) ∧
        block.Perm h.routes ∧
        ∀ q : String, (∀ r, block.find? (Route.begins q) = some r ↔ h.LongestMatch q r) ∧
          (block.find? (Route.begins q) = none ↔ ∀ r ∈ h.routes, ¬ r.path.toList <+: q.toList) := by
  obtain ⟨hv, rfl⟩ := Generation.eq_of_buildFrontends hbuilt
  refine ⟨Generation.mapsServing_ne_nil rfl hterm, fun m hm => ?_⟩
  obtain ⟨serves, hserves, hentries⟩ : ∃ serves : Host → Bool, serves h = true ∧
      m.entries = (g.state.orderedRoutes serves).map routeEntry := by
    obtain ⟨-, ⟨hcert, rfl⟩ | ⟨hplain, rfl⟩⟩ := (Generation.mem_mapsServing_iff rfl).mp hm
    · exact ⟨_, by rw [hcert, hterm]; rfl, DesiredState.httpsEntries_eq⟩
    · have hflag : (h.certificate.isNone || !g.state.globals.sslRedirect) = true := by
        rw [← Option.not_isSome, ← Bool.not_and]
        exact congrArg not hplain
      exact ⟨_, by rw [hflag, hterm]; rfl, DesiredState.httpEntries_eq⟩
  obtain ⟨before, after, hsplit, hothers⟩ := hv.exists_block hh hserves
  refine ⟨before, after, h.sortedRoutes, ?_, hothers, List.mergeSort_perm _ _, fun q => ?_⟩
  · rw [hentries, hsplit, List.map_append, List.map_append, List.map_map]
    rfl
  · exact ⟨fun r => Host.find?_begins_eq_some_iff (hv.paths h hh), Host.find?_begins_eq_none_iff⟩

/-- The longer path of a host that has two. -/
theorem first_match_is_longest_market :
    let h : Host := { hostname := "shop.local", certificate := some "shop.pem"
                      routes := [⟨"/", "web"⟩, ⟨"/api", "api"⟩] }
    market.buildFrontends = (.ok (), market) ∧ h ∈ market.state.hosts ∧ h.passthrough = false ∧
      market.mapsServing h ≠ [] ∧ ∀ m ∈ market.mapsServing h,
        ∃ (before after : List (Host × Route)) (block : List Route),
          m.entries = before.map routeEntry ++ block.map (fun r => ⟨h.key r, r.backend⟩)
            ++ after.map routeEntry ∧
          block.find? (Route.begins "/api/v1") = some ⟨"/api", "api"⟩ := by
  intro h
  have hh : h ∈ market.state.hosts := by decide +kernel
  have hlongest : h.LongestMatch "/api/v1" ⟨"/api", "api"⟩ :=
    ⟨by decide, by decide, by decide⟩
  obtain ⟨hserved, hmaps⟩ := first_match_is_longest isBuilt_market.frontends hh rfl
  refine ⟨isBuilt_market.frontends, hh, rfl, hserved, fun m hm => ?_⟩
  obtain ⟨before, after, block, hentries, -, -, hscan⟩ := hmaps m hm
  exact ⟨before, after, block, hentries, ((hscan "/api/v1").1 _).mpr hlongest⟩

end Rollout
