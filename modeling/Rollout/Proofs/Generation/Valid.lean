import Rollout.Proofs.Generation.Routes

/-!
# Proofs/Generation/Valid — the states that the phases accept

Each phase goes through sorted copies of the lists and stops at the first fault.  What it accepts does
not depend on any order: the frontend phase accepts exactly the states whose hosts are in order
(`DesiredState.ValidHosts`), the backend phase exactly those whose backends are and whose routes point
at them (`DesiredState.ValidBackends`).  A phase writes its own artifact and nothing else, and what the
generation carried before makes no difference (`phases_accept_valid_states`).
-/

namespace Rollout

namespace DesiredState

/-- **Hosts in order.** -/
structure ValidHosts (d : DesiredState) : Prop where
  names : ∀ h ∈ d.hosts, SoundName h.hostname
  distinct : (d.hosts.map (·.hostname)).Nodup
  paths : ∀ h ∈ d.hosts, (h.routes.map (·.path)).Nodup
  no_blank : ∀ h ∈ d.hosts, ∀ r ∈ h.routes, ∀ c ∈ r.path.toList, Text.isBlank c = false
  no_control : ∀ h ∈ d.hosts, ∀ r ∈ h.routes, ∀ c ∈ r.path.toList, Text.isControl c = false
  root : ∀ h ∈ d.hosts, h.passthrough = true → ∀ r ∈ h.routes, r.path = "/"

/-- **Backends in order**, and routes that point at them. -/
structure ValidBackends (d : DesiredState) : Prop where
  ids : ∀ b ∈ d.backends, SoundName b.id
  distinct : (d.backends.map (·.id)).Nodup
  names : ∀ b ∈ d.backends, ∀ s ∈ b.servers, SoundName s.name
  distinctNames : ∀ b ∈ d.backends, (b.servers.map (·.name)).Nodup
  ports : ∀ b ∈ d.backends, ∀ s ∈ b.servers, s.enabled = true → s.port ≠ 0
  addresses : ∀ b ∈ d.backends, ∀ s ∈ b.servers, s.enabled = true → ∃ a, Address.parse s.ip = some a
  fallback : ∀ id ∈ d.defaultBackend, ∃ b ∈ d.backends, b.id = id
  paths : ∀ h ∈ d.hosts, (h.routes.map (·.path)).Nodup
  routes : ∀ h ∈ d.hosts, ∀ r ∈ h.routes, ∃ b ∈ d.backends, b.id = r.backend

variable {d : DesiredState}

theorem validHosts_iff :
    d.ValidHosts ↔ (∀ h ∈ d.hosts, h.Sound) ∧ (d.hosts.map (·.hostname)).Nodup := by
  constructor
  · intro hv
    refine ⟨fun h hh => ⟨hv.names h hh, hv.paths h hh, fun r hr => ?_, hv.root h hh⟩, hv.distinct⟩
    exact tokenFault_eq_none_iff.mpr ⟨hv.no_blank h hh r hr, hv.no_control h hh r hr⟩
  · rintro ⟨hsound, hdistinct⟩
    have htoken (h : Host) (hh : h ∈ d.hosts) (r : Route) (hr : r ∈ h.routes) :=
      tokenFault_eq_none_iff.mp ((hsound h hh).tokens r hr)
    exact ⟨fun h hh => (hsound h hh).name, hdistinct, fun h hh => (hsound h hh).paths,
      fun h hh r hr => (htoken h hh r hr).1, fun h hh r hr => (htoken h hh r hr).2,
      fun h hh => (hsound h hh).root⟩

theorem exists_backend_iff {id : String} :
    (∃ b ∈ d.backends, b.id = id) ↔ d.declares id = true := by
  rw [declares_iff, List.mem_map]

theorem validBackends_iff : d.ValidBackends ↔ (∀ b ∈ d.backends, b.Sound) ∧
    (d.backends.map (·.id)).Nodup ∧ (∀ id ∈ d.defaultBackend, d.declares id = true) ∧
      d.checkRoutes = .ok () := by
  rw [checkRoutes_eq_ok_iff]
  simp only [← exists_backend_iff]
  constructor
  · intro hv
    refine ⟨fun b hb => ⟨hv.ids b hb, fun s hs => ⟨hv.names b hb s hs, hv.ports b hb s hs, ?_⟩,
      hv.distinctNames b hb⟩, hv.distinct, hv.fallback, fun h hh => ⟨hv.paths h hh, hv.routes h hh⟩⟩
    exact fun he => Option.isSome_iff_exists.mpr (hv.addresses b hb s hs he)
  · rintro ⟨hsound, hdistinct, hfallback, hroutes⟩
    have hserver (b : Backend) (hb : b ∈ d.backends) := (hsound b hb).servers
    exact ⟨fun b hb => (hsound b hb).id, hdistinct, fun b hb s hs => (hserver b hb s hs).name,
      fun b hb => (hsound b hb).names, fun b hb s hs => (hserver b hb s hs).port,
      fun b hb s hs he => Option.isSome_iff_exists.mp ((hserver b hb s hs).address he), hfallback,
      fun h hh => (hroutes h hh).1, fun h hh => (hroutes h hh).2⟩

end DesiredState

/-- **The frontend phase groups the hosts exactly if they are valid.** -/
theorem DesiredState.exists_frontendGroup_iff {d : DesiredState} :
    (∃ f, d.frontendGroup = .ok f) ↔ d.ValidHosts := by
  simp only [frontendGroup_eq_ok_iff, validHosts_iff, ← and_assoc, exists_and_left, exists_eq',
    and_true]

/-- **The backend phase numbers the routes exactly if backends and routes are valid.** -/
theorem DesiredState.exists_backendMaps_iff {d : DesiredState} :
    (∃ ms, d.backendMaps = .ok ms) ↔ d.ValidBackends := by
  simp only [backendMaps_eq_ok_iff, validBackends_iff, exists_and_left, exists_eq', and_true]

namespace Generation

/-- **What the frontend phase leaves**: its artifact if it succeeds, none if it fails, and the rest as
it was. -/
theorem buildFrontends_leaves (g : Generation) :
    (g.buildFrontends.1 = .ok () ↔ g.state.ValidHosts) ∧
    (g.buildFrontends.2.frontends.isSome = true ↔ g.buildFrontends.1 = .ok ()) ∧
    g.buildFrontends.2.state = g.state ∧ g.buildFrontends.2.pathMaps = g.pathMaps := by
  rw [← DesiredState.exists_frontendGroup_iff]
  rcases g.buildFrontends_cases with ⟨f, hgroup, hg⟩ | ⟨e, hgroup, hg⟩
  · simp [hg, hgroup]
  · simp [hg, hgroup]

/-- **What the backend phase leaves**, likewise. -/
theorem buildBackends_leaves (g : Generation) :
    (g.buildBackends.1 = .ok () ↔ g.state.ValidBackends) ∧
    (g.buildBackends.2.pathMaps.isSome = true ↔ g.buildBackends.1 = .ok ()) ∧
    g.buildBackends.2.state = g.state ∧ g.buildBackends.2.frontends = g.frontends := by
  rw [← DesiredState.exists_backendMaps_iff]
  rcases g.buildBackends_cases with ⟨ms, hmaps, hg⟩ | ⟨e, hmaps, hg⟩
  · simp [hg, hmaps]
  · simp [hg, hmaps]

/-- **The frontend phase sets the frontends that valid hosts describe.** -/
theorem eq_of_buildFrontends {g built : Generation} (h : g.buildFrontends = (.ok (), built)) :
    g.state.ValidHosts ∧ built = { g with frontends := some g.state.describedFrontends } := by
  rcases g.buildFrontends_cases with ⟨f, hgroup, hg⟩ | ⟨e, -, hg⟩ <;> rw [hg, Prod.mk.injEq] at h
  · obtain ⟨hsound, hdistinct, rfl⟩ := DesiredState.frontendGroup_eq_ok_iff.mp hgroup
    exact ⟨DesiredState.validHosts_iff.mpr ⟨hsound, hdistinct⟩, h.2.symm⟩
  · exact nomatch h.1

/-- The hosts of a built generation are valid. -/
theorem IsBuilt.validHosts {g : Generation} (hg : g.IsBuilt) : g.state.ValidHosts :=
  (eq_of_buildFrontends hg.frontends).1

/-- So are its backends. -/
theorem IsBuilt.validBackends {g : Generation} (hg : g.IsBuilt) : g.state.ValidBackends :=
  g.buildBackends_leaves.1.mp (congrArg Prod.fst hg.backends)

end Generation

/-- **A valid state is built with the artifacts that it describes.** -/
theorem DesiredState.isBuilt_described {d : DesiredState} (hhosts : d.ValidHosts)
    (hbackends : d.ValidBackends) : d.described.IsBuilt := by
  obtain ⟨f, hf⟩ := exists_frontendGroup_iff.mpr hhosts
  obtain ⟨ms, hms⟩ := exists_backendMaps_iff.mpr hbackends
  obtain ⟨-, -, hdescribed⟩ := frontendGroup_eq_ok_iff.mp hf
  obtain ⟨-, -, -, -, hmaps⟩ := backendMaps_eq_ok_iff.mp hms
  exact Generation.isBuilt_iff.mpr ⟨⟨f, hf, congrArg some hdescribed⟩, ms, hms, congrArg some hmaps⟩

/-- **The phases accept exactly the valid states.**  Whatever the generation carried before, the
frontend phase succeeds exactly if the hosts are valid, and the backend phase exactly if backends and
routes are.  A phase that succeeds sets its artifact and one that fails clears it; the desired state and
the other artifact stay as they are. -/
theorem phases_accept_valid_states (g : Generation) :
    (g.buildFrontends.1 = .ok () ↔ g.state.ValidHosts) ∧
    (g.buildBackends.1 = .ok () ↔ g.state.ValidBackends) ∧
    (g.buildFrontends.2.frontends.isSome = true ↔ g.buildFrontends.1 = .ok ()) ∧
    (g.buildBackends.2.pathMaps.isSome = true ↔ g.buildBackends.1 = .ok ()) ∧
    g.buildFrontends.2.state = g.state ∧ g.buildFrontends.2.pathMaps = g.pathMaps ∧
    g.buildBackends.2.state = g.state ∧ g.buildBackends.2.frontends = g.frontends := by
  obtain ⟨hhosts, hgroup, hfrontends⟩ := g.buildFrontends_leaves
  obtain ⟨hbackends, hmaps, hpaths⟩ := g.buildBackends_leaves
  exact ⟨hhosts, hbackends, hgroup, hmaps, hfrontends.1, hfrontends.2, hpaths⟩

end Rollout
