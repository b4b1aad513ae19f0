import Rollout.Proofs.Generation.Order
import Rollout.Proofs.Generation.Phases
import Rollout.Proofs.State.Naming

/-!
# Proofs/Generation/Reordered — the artifacts ignore the order of the lists

A caller may list hosts, routes, backends and servers in any order (`DesiredState.Reordered`).  The phases
go through sorted copies, and the keys they sort by are distinct in every valid state, so each phase gives
the same answer on both (`validHosts_iff_of_reordered`, `validBackends_iff_of_reordered`).  The artifacts
are derived from the hosts and routes in order and from nothing else (`described_inOrder`), and two states
that differ in order only agree on those (`DesiredState.Reordered.inOrder_eq`).
-/

namespace Rollout

/-! ## Lists in another order -/

/-- **The elements of a list in another order**, each up to a relation. -/
def Shuffled {α : Type} (R : α → α → Prop) (xs ys : List α) : Prop :=
  ∃ zs, xs.Perm zs ∧ List.Forall₂ R zs ys

section

variable {α β : Type} {R : α → α → Prop} {xs ys : List α}

/-- Values that related elements share come in another order as well. -/
theorem Shuffled.map_perm {f : α → β} (h : Shuffled R xs ys)
    (hR : ∀ x ∈ xs, ∀ y, R x y → f y = f x) : (xs.map f).Perm (ys.map f) := by
  obtain ⟨zs, hperm, hzs⟩ := h
  have hmem : List.Forall₂ (fun z y => z ∈ xs ∧ R z y) zs ys :=
    (List.forall₂_and_left zs ys).mpr ⟨fun z hz => hperm.mem_iff.mpr hz, hzs⟩
  exact (hperm.map f).trans (.of_eq (map_eq_of_forall₂ hmem fun z y hzy => hR z hzy.1 y hzy.2).symm)

/-- What holds of related elements alike holds of all of both lists or of none. -/
theorem Shuffled.forall_iff {p : α → Prop} (h : Shuffled R xs ys) (hR : ∀ x y, R x y → (p x ↔ p y)) :
    (∀ x ∈ xs, p x) ↔ ∀ y ∈ ys, p y := by
  have hperm := h.map_perm fun x _ y hxy => propext (hR x y hxy).symm
  have hall (zs : List α) : (∀ z ∈ zs, p z) ↔ ∀ q ∈ zs.map p, q :=
    (List.forall_mem_map (P := fun q : Prop => q)).symm
  rw [hall, hall]
  simp only [hperm.mem_iff]

end

/-- **A host with its routes in another order.** -/
structure Host.Reordered (h k : Host) : Prop where
  hostname : k.hostname = h.hostname
  routes : h.routes.Perm k.routes
  certificate : k.certificate = h.certificate
  passthrough : k.passthrough = h.passthrough

/-- **A backend with its servers in another order.** -/
structure Backend.Reordered (b c : Backend) : Prop where
  id : c.id = b.id
  mode : c.mode = b.mode
  balance : c.balance = b.balance
  servers : b.servers.Perm c.servers

/-- **A state with all its lists in another order.** -/
structure DesiredState.Reordered (d e : DesiredState) : Prop where
  globals : e.globals = d.globals
  hosts : Shuffled Host.Reordered d.hosts e.hosts
  backends : Shuffled Backend.Reordered d.backends e.backends
  defaultBackend : e.defaultBackend = d.defaultBackend

/-! ## The phases give the same answer -/

theorem Host.Reordered.nodup_paths_iff {h k : Host} (hk : h.Reordered k) :
    (h.routes.map (·.path)).Nodup ↔ (k.routes.map (·.path)).Nodup :=
  (hk.routes.map _).nodup_iff

/-- The order of the routes does not decide whether a host is sound. -/
theorem Host.Reordered.sound_iff {h k : Host} (hk : h.Reordered k) : h.Sound ↔ k.Sound := by
  rw [Host.sound_iff, Host.sound_iff, hk.hostname, hk.nodup_paths_iff, hk.passthrough]
  simp only [hk.routes.mem_iff]

/-- Nor does that of the servers decide whether a backend is, once they are named. -/
theorem Backend.Reordered.sound_named_iff {b c : Backend} (hc : b.Reordered c) :
    b.named.Sound ↔ c.named.Sound := by
  rw [Backend.sound_named_iff, Backend.sound_named_iff, hc.id,
    (givenNames_perm hc.servers).nodup_iff]
  simp only [hc.servers.mem_iff]

namespace DesiredState

variable {d e : DesiredState}

/-- **The order of the lists does not decide whether hosts are valid.** -/
theorem validHosts_iff_of_reordered (h : d.Reordered e) : d.ValidHosts ↔ e.ValidHosts := by
  have hnames : (d.hosts.map (·.hostname)).Perm (e.hosts.map (·.hostname)) :=
    h.hosts.map_perm fun _ _ _ hk => hk.hostname
  rw [validHosts_iff, validHosts_iff, hnames.nodup_iff,
    h.hosts.forall_iff fun _ _ hk => hk.sound_iff]

/-- The ids of the backends once their servers are named. -/
theorem map_id_ofState (d : DesiredState) :
    (Generation.ofState d).state.backends.map (·.id) = d.backends.map (·.id) :=
  List.map_map

theorem declares_eq_of_reordered (h : d.Reordered e) (id : String) :
    (Generation.ofState d).state.declares id = (Generation.ofState e).state.declares id := by
  have hids : (d.backends.map (·.id)).Perm (e.backends.map (·.id)) :=
    h.backends.map_perm fun _ _ _ hc => hc.id
  rw [Bool.eq_iff_iff, declares_iff, declares_iff, map_id_ofState, map_id_ofState, hids.mem_iff]

/-- **Nor whether backends and routes are**, once the servers are named. -/
theorem validBackends_iff_of_reordered (h : d.Reordered e) :
    (Generation.ofState d).state.ValidBackends ↔ (Generation.ofState e).state.ValidBackends := by
  have hids : (d.backends.map (·.id)).Perm (e.backends.map (·.id)) :=
    h.backends.map_perm fun _ _ _ hc => hc.id
  have hbackends : (∀ b ∈ (Generation.ofState d).state.backends, b.Sound) ↔
      ∀ b ∈ (Generation.ofState e).state.backends, b.Sound := by
    simp only [Generation.ofState, List.forall_mem_map]
    exact h.backends.forall_iff fun _ _ hc => hc.sound_named_iff
  have hroutes : (Generation.ofState d).state.checkRoutes = .ok () ↔
      (Generation.ofState e).state.checkRoutes = .ok () := by
    rw [checkRoutes_eq_ok_iff, checkRoutes_eq_ok_iff]
    simp only [declares_eq_of_reordered h]
    refine h.hosts.forall_iff fun k l hl => ?_
    rw [hl.nodup_paths_iff]
    simp only [hl.routes.mem_iff]
  rw [validBackends_iff, validBackends_iff, map_id_ofState, map_id_ofState, hids.nodup_iff, hbackends,
    hroutes]
  simp only [declares_eq_of_reordered h]
  rw [show (Generation.ofState e).state.defaultBackend = (Generation.ofState d).state.defaultBackend
    from h.defaultBackend]

end DesiredState

/-! ## What the artifacts are derived from -/

/-- The host with its routes in order. -/
def Host.inOrder (h : Host) : Host := { h with routes := h.sortedRoutes }

/-- **The state with hosts and routes in order, and no backends.** -/
def DesiredState.inOrder (d : DesiredState) : DesiredState :=
  { d with hosts := (sortHosts d.hosts).map Host.inOrder, backends := [] }

theorem sortHosts_inOrder (hosts : List Host) :
    sortHosts ((sortHosts hosts).map Host.inOrder) = (sortHosts hosts).map Host.inOrder :=
  List.mergeSort_of_pairwise (List.pairwise_map.mpr (sorted_sortHosts hosts))

@[simp] theorem Host.sortedRoutes_inOrder (h : Host) : h.inOrder.sortedRoutes = h.sortedRoutes :=
  List.mergeSort_of_pairwise h.sorted_sortedRoutes

theorem Host.entries_inOrder (h : Host) : h.inOrder.entries = h.entries := by
  rw [entries, entries, sortedRoutes_inOrder]
  rfl

namespace DesiredState

variable (d : DesiredState)

theorem terminatedHosts_inOrder : d.inOrder.terminatedHosts = d.terminatedHosts.map Host.inOrder := by
  rw [terminatedHosts, terminatedHosts, inOrder, sortHosts_inOrder, List.filter_map]
  rfl

theorem flatMap_entries_inOrder (hosts : List Host) :
    (hosts.map Host.inOrder).flatMap Host.entries = hosts.flatMap Host.entries := by
  rw [List.flatMap_map]
  exact List.flatMap_congr fun h _ => h.entries_inOrder

theorem describedFrontends_inOrder : d.inOrder.describedFrontends = d.describedFrontends := by
  have hhttp : d.inOrder.httpEntries = d.httpEntries := by
    rw [httpEntries, httpEntries, terminatedHosts_inOrder, List.filter_map, flatMap_entries_inOrder]
    rfl
  have hhttps : d.inOrder.httpsEntries = d.httpsEntries := by
    rw [httpsEntries, httpsEntries, terminatedHosts_inOrder, List.filter_map, flatMap_entries_inOrder]
    rfl
  have hstreams : d.inOrder.passthroughEntries = d.passthroughEntries := by
    rw [passthroughEntries, passthroughEntries, inOrder, sortHosts_inOrder, List.filter_map,
      List.filterMap_map]
    simp only [Function.comp_def, Host.sortedRoutes_inOrder]
    rfl
  have hredirect : d.inOrder.redirectEntries = d.redirectEntries := by
    rw [redirectEntries, redirectEntries, terminatedHosts_inOrder, List.filter_map, List.map_map]
    rfl
  rw [describedFrontends, hhttp, hhttps, hstreams, hredirect]
  rfl

theorem routeEntries_inOrder : d.inOrder.routeEntries = d.routeEntries := by
  rw [routeEntries, routeEntries, inOrder, sortHosts_inOrder, flatMap_entries_inOrder]

/-- **The artifacts are derived from the hosts and routes in order.** -/
theorem described_inOrder : d.inOrder.described.frontends = d.described.frontends ∧
    d.inOrder.described.pathMaps = d.described.pathMaps := by
  have hrouted : d.inOrder.routedBackends = d.routedBackends := by
    rw [routedBackends, routedBackends, routeEntries_inOrder]
  have hpaths : d.inOrder.pathsMap = d.pathsMap := by
    funext id
    rw [pathsMap, pathsMap, routeEntries_inOrder]
  exact ⟨congrArg some d.describedFrontends_inOrder, by rw [described, described, hrouted, hpaths]⟩

end DesiredState

/-- Routes under distinct paths have one order. -/
theorem Host.Reordered.inOrder_eq {h k : Host} (hk : h.Reordered k)
    (hpaths : (h.routes.map (·.path)).Nodup) : k.inOrder = h.inOrder := by
  have hroutes : k.sortedRoutes = h.sortedRoutes := by
    exact List.Perm.eq_of_pairwise (fun _ _ _ _ hrs hsr => absurd hsr (Route.Precedes.asymm hrs))
      (pairwise_sortedRoutes (hk.nodup_paths_iff.mp hpaths)) (pairwise_sortedRoutes hpaths)
      ((List.mergeSort_perm _ _).trans (hk.routes.symm.trans (List.mergeSort_perm _ _).symm))
  rw [inOrder, inOrder, hroutes, hk.hostname, hk.certificate, hk.passthrough]

namespace DesiredState

variable {d e : DesiredState}

/-- **States that differ in order only agree in order**, if their hosts are valid. -/
theorem Reordered.inOrder_eq (h : d.Reordered e) (hv : d.ValidHosts) : e.inOrder = d.inOrder := by
  have horder {c : DesiredState} (hc : c.ValidHosts) :
      ((sortHosts c.hosts).map Host.inOrder).Pairwise Host.Precedes :=
    List.pairwise_map.mpr (pairwise_sortHosts hc.distinct)
  have hperm := h.hosts.map_perm fun k hk _ hl => hl.inOrder_eq (hv.paths k hk)
  have hhosts : (sortHosts e.hosts).map Host.inOrder = (sortHosts d.hosts).map Host.inOrder :=
    List.Perm.eq_of_pairwise (fun _ _ _ _ hkl hlk => absurd hlk hkl.asymm)
      (horder ((validHosts_iff_of_reordered h).mp hv)) (horder hv)
      (((sortHosts_perm _).map _).trans (hperm.symm.trans ((sortHosts_perm _).map _).symm))
  rw [inOrder, inOrder, hhosts, h.globals, h.defaultBackend]

end DesiredState

/-- Naming servers leaves the hosts alone. -/
theorem DesiredState.validHosts_ofState_iff {d : DesiredState} :
    (Generation.ofState d).state.ValidHosts ↔ d.ValidHosts := by
  rw [validHosts_iff, validHosts_iff]
  rfl

/-- **The artifacts ignore the order of the lists.**  Two states that differ in order only pass each phase
alike, and if they pass both, then with the same frontends and the same path maps. -/
theorem artifacts_ignore_order {d e : DesiredState} (h : d.Reordered e) :
    ((Generation.ofState d).buildFrontends.1 = .ok () ↔
      (Generation.ofState e).buildFrontends.1 = .ok ()) ∧
    ((Generation.ofState d).buildBackends.1 = .ok () ↔
      (Generation.ofState e).buildBackends.1 = .ok ()) ∧
    ∀ built, (Generation.ofState d).build = (.ok (), built) →
      ∃ built', (Generation.ofState e).build = (.ok (), built') ∧
        built'.frontends = built.frontends ∧ built'.pathMaps = built.pathMaps := by
  have hhosts : (Generation.ofState d).state.ValidHosts ↔ (Generation.ofState e).state.ValidHosts := by
    rw [DesiredState.validHosts_ofState_iff, DesiredState.validHosts_ofState_iff,
      DesiredState.validHosts_iff_of_reordered h]
  have hbackends := DesiredState.validBackends_iff_of_reordered h
  refine ⟨?_, ?_, fun built hbuild => ?_⟩
  · rw [(Generation.buildFrontends_leaves _).1, (Generation.buildFrontends_leaves _).1, hhosts]
  · rw [(Generation.buildBackends_leaves _).1, (Generation.buildBackends_leaves _).1, hbackends]
  · obtain ⟨hbuilt, hstate⟩ := Generation.build_eq_ok_iff.mp hbuild
    have hvalid := hstate ▸ hbuilt.validHosts
    have hvalid' := hstate ▸ hbuilt.validBackends
    refine ⟨(Generation.ofState e).state.described, Generation.build_eq_ok_iff.mpr
      ⟨DesiredState.isBuilt_described (hhosts.mp hvalid) (hbackends.mp hvalid'), rfl⟩, ?_⟩
    have horder : (Generation.ofState e).state.inOrder = (Generation.ofState d).state.inOrder :=
      h.inOrder_eq (DesiredState.validHosts_ofState_iff.mp hvalid)
    have hsame := (Generation.ofState e).state.described_inOrder
    rw [horder] at hsame
    have hdescribed := (Generation.ofState d).state.described_inOrder
    rw [← (Generation.isBuilt_iff_sound.mp hbuilt).2, hstate]
    exact ⟨hsame.1.symm.trans hdescribed.1, hsame.2.symm.trans hdescribed.2⟩

/-- The hosts, routes and backends of `marketState` the other way round. -/
def turnedMarketState : DesiredState :=
  { marketState with
    hosts := [
      { hostname := "shop.local", certificate := some "shop.pem"
        routes := [⟨"/api", "api"⟩, ⟨"/", "web"⟩] },
      { hostname := "mail.local", routes := [⟨"/", "mail"⟩], passthrough := true },
      { hostname := "blog.local", routes := [⟨"/", "web"⟩] }]
    backends := marketState.backends.reverse }

/-- Hosts that are turned round give the same maps. -/
theorem artifacts_ignore_order_market : marketState.Reordered turnedMarketState ∧
    (Generation.ofState marketState).build = (.ok (), market) ∧
    ((Generation.ofState marketState).buildFrontends.1 = .ok () ↔
      (Generation.ofState turnedMarketState).buildFrontends.1 = .ok ()) ∧
    ((Generation.ofState marketState).buildBackends.1 = .ok () ↔
      (Generation.ofState turnedMarketState).buildBackends.1 = .ok ()) ∧
    ∀ built, (Generation.ofState marketState).build = (.ok (), built) →
      ∃ built', (Generation.ofState turnedMarketState).build = (.ok (), built') ∧
        built'.frontends = built.frontends ∧ built'.pathMaps = built.pathMaps := by
  have hsame (h : Host) : h.Reordered h := ⟨rfl, .refl _, rfl, rfl⟩
  have hsame' (b : Backend) : b.Reordered b := ⟨rfl, rfl, rfl, .refl _⟩
  have hturned : marketState.Reordered turnedMarketState :=
    { globals := rfl
      hosts := ⟨marketState.hosts.reverse, (List.reverse_perm _).symm,
        .cons ⟨rfl, .swap _ _ _, rfl, rfl⟩ (.cons (hsame _) (.cons (hsame _) .nil))⟩
      backends := ⟨marketState.backends.reverse, (List.reverse_perm _).symm,
        List.forall₂_same.mpr fun b _ => hsame' b⟩
      defaultBackend := rfl }
  exact ⟨hturned, Generation.build_eq_ok_iff.mpr ⟨isBuilt_market, by decide +kernel⟩,
    artifacts_ignore_order hturned⟩

end Rollout
