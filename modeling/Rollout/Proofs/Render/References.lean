import Rollout.Proofs.Render.Files

/-!
# Proofs/Render/References — everything that is mentioned is there

Four passes over hosts and backends have to agree, and nothing checks that they do: the two phases, the
context of the templates and the list of files.  In a built generation they do.  What the maps lead to
is declared (`IsBuilt.count_of_mem_targets`), a backend has a map exactly if a route points at it
(`IsBuilt.exists_pathsMap_iff`), and a map that the context mentions is among the files, before the
one that mentions it (`exists_file_of_mem_mapFiles`).  A host with a certificate brings the frontend
that terminates TLS (`IsBuilt.httpsWritten_mem_sections`).
-/

namespace Rollout

/-! ## Certificates -/

/-- Leaving out repetitions leaves out no element. -/
theorem mem_eraseReps {α : Type} [BEq α] [LawfulBEq α] {x : α} {l : List α} :
    x ∈ l.eraseReps ↔ x ∈ l := by
  have hloop (as : List α) : ∀ a acc,
      x ∈ List.eraseRepsBy.loop (· == ·) a as acc ↔ x = a ∨ x ∈ as ∨ x ∈ acc := by
    induction as with
    | nil => simp [List.eraseRepsBy.loop, or_comm]
    | cons b as ih =>
      intro a acc
      rw [List.eraseRepsBy.loop]
      cases hab : a == b with
      | true =>
        obtain rfl := beq_iff_eq.mp hab
        simp only [ih, List.mem_cons]
        tauto
      | false =>
        simp only [ih, List.mem_cons]
        tauto
  cases l with
  | nil => rfl
  | cons a as => simp [List.eraseReps, List.eraseRepsBy, hloop]

/-- **The certificates are those of the hosts that are terminated here.** -/
theorem DesiredState.mem_certificates {d : DesiredState} {c : String} : c ∈ d.certificates ↔
    ∃ h ∈ d.hosts, h.passthrough = false ∧ h.certificate = some c := by
  simp only [certificates, mem_eraseReps, List.mem_mergeSort, List.mem_filterMap, List.mem_filter,
    Bool.not_eq_true', and_assoc]

/-! ## What is mentioned -/

/-- **The maps that the templates of the main files see.** -/
def RenderContext.mapFiles (c : RenderContext) : List String :=
  c.http.mapFile.toList ++ c.https.mapFile.toList ++ c.passthroughMap.toList
    ++ c.redirectMap.toList ++ c.backends.flatMap (·.pathsMap.toList)

/-- **A map numbers the routes of a backend**: it has one entry for each of them, and their values are
the numbers from one on, in order. -/
structure MapFile.Numbers (m : MapFile) (d : DesiredState) (backend : String) : Prop where
  keys : (m.entries.map (·.key)).Perm
    (d.hosts.flatMap fun h => (h.routes.filter (·.backend == backend)).map h.key)
  values : m.entries.map (·.value) = (List.range' 1 m.entries.length).map DesiredState.pathId

/-- No two routes of a backend share a number. -/
theorem MapFile.Numbers.nodup_values {m : MapFile} {d : DesiredState} {backend : String}
    (h : m.Numbers d backend) : (m.entries.map (·.value)).Nodup := by
  have hnumbers : (List.range' 1 m.entries.length).Nodup := List.nodup_range'
  rw [h.values]
  exact hnumbers.map DesiredState.pathId_injective

theorem DesiredState.numbers_pathsMap (d : DesiredState) (backend : String) :
    (d.pathsMap backend).Numbers d backend :=
  ⟨d.keys_pathsMap_perm backend, d.values_pathsMap backend⟩

theorem MapFile.reference_eq_some_iff {m : MapFile} {dir path : String} :
    m.reference dir = some path ↔ m.entries ≠ [] ∧ mapPath dir m.name = path := by
  rw [reference]
  cases m.entries <;> simp

namespace Generation

variable {g : Generation} {l : Layout} {path : String}

/-- **The backends that a generation names**, apart from its routes: where the maps of requests and of
server names lead to, and the one that takes what nothing else takes. -/
def targets (g : Generation) : List String :=
  (match g.frontends with
    | some f => (f.http.hostMap.entries ++ f.https.hostMap.entries
        ++ f.passthrough.entries).map (·.value)
    | none => [])
  ++ g.state.defaultBackend.toList

/-- **The maps that the proxy consults**: those of the frontends, and the ones of the backends that read
requests. -/
def consulted (g : Generation) : List MapFile :=
  (match g.frontends with
    | some f => [f.http.hostMap, f.https.hostMap, f.passthrough, f.redirect]
    | none => [])
  ++ g.backends.filterMap fun b =>
    match b.mode with
    | .http => g.pathsOf? b.id
    | .tcp => none

theorem consulted_subset_maps (g : Generation) : g.consulted ⊆ g.maps := by
  refine List.append_subset.mpr ⟨List.subset_append_left _ _, fun m hm => ?_⟩
  obtain ⟨b, -, hb⟩ := List.mem_filterMap.mp hm
  cases hmode : b.mode with
  | tcp => simp [hmode] at hb
  | http =>
    rw [hmode] at hb
    exact List.mem_append_right _ (List.mem_of_find?_eq_some hb)

/-- **What the templates see is what the proxy consults**, without the maps that are empty. -/
theorem mapFiles_context (g : Generation) (l : Layout) :
    (g.context l).mapFiles = g.consulted.filterMap (·.reference l.mapsDir) := by
  have hbackends : (g.context l).backends.flatMap (·.pathsMap.toList)
      = (g.backends.filterMap fun b => match b.mode with
        | .http => g.pathsOf? b.id
        | .tcp => none).filterMap (·.reference l.mapsDir) := by
    have hcontext : (g.context l).backends = g.backends.map (g.backendContext l.mapsDir) := rfl
    rw [hcontext, List.flatMap_map, List.filterMap_filterMap, List.filterMap_eq_flatMap_toList]
    refine List.flatMap_congr fun b _ => congrArg Option.toList ?_
    rw [backendContext]
    cases b.mode <;> rfl
  rw [RenderContext.mapFiles, hbackends, consulted, List.filterMap_append]
  refine congrArg (· ++ _) ?_
  rw [context]
  cases hfrontends : g.frontends with
  | none => rfl
  | some f => simp [frontendContext, List.filterMap_eq_flatMap_toList]

/-- **The templates see a map exactly if it is consulted and has an entry.** -/
theorem mem_mapFiles_iff : path ∈ (g.context l).mapFiles ↔
    ∃ m ∈ g.consulted, m.entries ≠ [] ∧ mapPath l.mapsDir m.name = path := by
  simp only [mapFiles_context, List.mem_filterMap, MapFile.reference_eq_some_iff]

/-- **Every map that is mentioned is a file before the main one**, whatever the templates are. -/
theorem exists_file_of_mem_mapFiles {τ : Type} [TemplateEngine τ] {filter proxy map : τ}
    {files : List Artifact}
    (h : (Renderer.ofTemplates l filter proxy map).render g = .ok files) :
    ∃ earlier main, earlier ++ [main] = files ∧ main.path = l.configFile ∧
      ∀ path ∈ (g.context l).mapFiles, ∃ m ∈ g.maps, m.entries ≠ [] ∧
        ∃ a ∈ earlier, (Renderer.ofTemplates l filter proxy map).renderMap m = .ok a ∧
          a.path = path := by
  have hmain : (Renderer.ofTemplates l filter proxy map).main
      = [⟨Renderer.filterInfo l, filter⟩] ++ [⟨Renderer.proxyInfo l, proxy⟩] := rfl
  obtain ⟨maps, others, main, hfiles, hmaps, hpath⟩ :=
    Renderer.exists_last_of_render hmain rfl h
  refine ⟨maps ++ others, main, hfiles, hpath, fun path hmem => ?_⟩
  obtain ⟨m, hconsulted, hentries, rfl⟩ := mem_mapFiles_iff.mp hmem
  have hm := g.consulted_subset_maps hconsulted
  obtain ⟨a, ha, hrender⟩ := forall₂_mem_left hmaps m hm
  exact ⟨m, hm, hentries, a, List.mem_append_left _ ha, hrender,
    Renderer.path_of_renderMap hrender⟩

namespace IsBuilt

/-- **Every backend that is named is declared once.** -/
theorem count_of_mem_targets (hg : g.IsBuilt) :
    ∀ id ∈ g.targets, (g.backends.map (·.id)).count id = 1 := by
  intro id hid
  refine List.count_eq_one_of_mem hg.nodup_ids ?_
  rw [targets, hg.frontends_eq, List.mem_append, List.mem_map, Option.mem_toList] at hid
  rcases hid with ⟨e, he, rfl⟩ | hdefault
  · exact hg.declared_of_mem he
  · exact DesiredState.declares_iff.mp (hg.sound_state.fallback id hdefault)

/-- **The map of a backend is the one that numbers its routes.** -/
theorem eq_pathsMap (hg : g.IsBuilt) {m : MapFile} {id : String} (hm : m ∈ g.maps)
    (hname : m.name = pathsMapName id) : m = g.state.pathsMap id ∧ id ∈ g.state.routedBackends := by
  rw [hg.maps_eq, List.mem_append, List.mem_map] at hm
  rcases hm with hm | ⟨id', hid', rfl⟩
  · have hfixed : m.name ∈ frontendMapNames := List.mem_map_of_mem hm
    exact absurd (hname ▸ hfixed) (pathsMapName_not_mem id)
  · obtain rfl := pathsMapName_injective hname
    exact ⟨rfl, hid'⟩

/-- **A backend has a map exactly if a route points at it.** -/
theorem exists_pathsMap_iff (hg : g.IsBuilt) {id : String} :
    (∃ m ∈ g.maps, m.name = pathsMapName id) ↔
      ∃ h ∈ g.state.hosts, ∃ r ∈ h.routes, r.backend = id := by
  rw [← DesiredState.mem_routedBackends]
  constructor
  · rintro ⟨m, hm, hname⟩
    exact (hg.eq_pathsMap hm hname).2
  · intro hid
    refine ⟨g.state.pathsMap id, ?_, rfl⟩
    rw [hg.maps_eq]
    exact List.mem_append_right _ (List.mem_map_of_mem hid)

/-- **The frontend that terminates TLS is written as soon as a host asks for it**: by an entry in its
map, or by being redirected to it. -/
theorem httpsWritten_mem_sections (hg : g.IsBuilt) {f : FrontendGroup} (hf : g.frontends = some f)
    (hentries : f.https.hostMap.entries ≠ [] ∨ f.redirect.entries ≠ []) :
    (g.context l).httpsWritten ∈ (g.context l).sections := by
  obtain ⟨h, hh, hterminated, hcertificate⟩ : ∃ h ∈ g.state.hosts, h.passthrough = false ∧
      h.certificate.isSome = true := by
    obtain rfl := Option.some.inj (hf.symm.trans hg.frontends_eq)
    rcases hentries with hne | hne
    · obtain ⟨e, he⟩ := List.exists_mem_of_ne_nil _ hne
      obtain ⟨h, hh, hterminated, hcertificate, -⟩ := DesiredState.mem_httpsEntries.mp he
      exact ⟨h, hh, hterminated, hcertificate⟩
    · obtain ⟨e, he⟩ := List.exists_mem_of_ne_nil _ hne
      obtain ⟨h, hh, hterminated, hredirected, -⟩ := DesiredState.mem_redirectEntries.mp he
      exact ⟨h, hh, hterminated, (Bool.and_eq_true_iff.mp hredirected).1⟩
  obtain ⟨c, hc⟩ := Option.isSome_iff_exists.mp hcertificate
  have hne : (g.context l).certificates.isEmpty = false := by
    rw [List.isEmpty_eq_false_iff_exists_mem]
    exact ⟨c, DesiredState.mem_certificates.mpr ⟨h, hh, hterminated, hc⟩⟩
  refine List.mem_append_right _ (List.mem_append_right _ ?_)
  rw [hne]
  exact List.mem_singleton_self _

/-- It is read back under its name. -/
theorem exists_https_section (hg : g.IsBuilt) {f : FrontendGroup} (hf : g.frontends = some f)
    (hentries : f.https.hostMap.entries ≠ [] ∨ f.redirect.entries ≠ []) :
    ∃ s ∈ readSections (g.context l).text, s.opening = ["frontend", httpsFrontendName] := by
  have hname : (g.context l).httpsWritten.name = some httpsFrontendName := by
    rw [RenderContext.httpsWritten, context, hg.frontends_eq]
    rfl
  obtain ⟨s, hs, hopening⟩ := (g.context l).httpsWritten.exists_mem_readSections_text hname (by decide)
  have htokens : tokens httpsFrontendName = [httpsFrontendName] := by decide
  refine ⟨s, ?_, hopening.trans (by rw [htokens]; rfl)⟩
  rw [RenderContext.readSections_text]
  exact List.mem_flatMap.mpr ⟨_, hg.httpsWritten_mem_sections hf hentries, hs⟩

end IsBuilt

end Generation

/-- **Everything that a built generation mentions is there.**  The maps of requests and of server names
and the default lead to backends that are declared once.  A backend has a map of its own exactly if a
route points at it, and that map numbers those routes.  Whatever the templates are, every map that they
see is a file of a map with an entry, listed before the main file, which is the last.  With the built-in
templates rendering succeeds, and the main file has the frontend that terminates TLS as soon as a
request is sent there or redirected to it. -/
theorem built_references_closed {g : Generation} (hg : g.IsBuilt) (l : Layout) :
    (∀ id ∈ g.targets, (g.backends.map (·.id)).count id = 1) ∧
    (∀ id : String,
      ((∃ m ∈ g.maps, m.name = pathsMapName id) ↔
        ∃ h ∈ g.state.hosts, ∃ r ∈ h.routes, r.backend = id) ∧
      ∀ m ∈ g.maps, m.name = pathsMapName id →
        m.Numbers g.state id ∧ (m.entries.map (·.value)).Nodup) ∧
    (∀ {τ : Type} [TemplateEngine τ] (filter proxy map : τ) (files : List Artifact),
      (Renderer.ofTemplates l filter proxy map).render g = .ok files →
      ∃ earlier main, earlier ++ [main] = files ∧ main.path = l.configFile ∧
        ∀ path ∈ (g.context l).mapFiles, ∃ m ∈ g.maps, m.entries ≠ [] ∧
          ∃ a ∈ earlier, (Renderer.ofTemplates l filter proxy map).renderMap m = .ok a ∧
            a.path = path) ∧
    ∃ earlier main, (Renderer.builtin l).render g = .ok (earlier ++ [main]) ∧
      main.path = l.configFile ∧
      ∀ f ∈ g.frontends, f.https.hostMap.entries ≠ [] ∨ f.redirect.entries ≠ [] →
        ∃ s ∈ readSections main.content, s.opening = ["frontend", httpsFrontendName] := by
  refine ⟨hg.count_of_mem_targets, fun id => ⟨hg.exists_pathsMap_iff, fun m hm hname => ?_⟩,
    fun filter proxy map files h => Generation.exists_file_of_mem_mapFiles h,
    _, _, Renderer.render_builtin l g, rfl, fun f hf hentries => hg.exists_https_section hf hentries⟩
  obtain rfl := (hg.eq_pathsMap hm hname).1
  have hnumbers := g.state.numbers_pathsMap id
  exact ⟨hnumbers, hnumbers.nodup_values⟩

/-- A host that plain requests are redirected from. -/
theorem built_references_closed_market :
    let l : Layout := { configFile := "haproxy.cfg", configDir := ".", mapsDir := "maps" }
    market.IsBuilt ∧ "web" ∈ market.targets ∧ (market.backends.map (·.id)).count "web" = 1 ∧
    (marketState.pathsMap "web").Numbers marketState "web" ∧
    ∃ earlier main, (Renderer.builtin l).render market = .ok (earlier ++ [main]) ∧
      main.path = "haproxy.cfg" ∧
      (∃ a ∈ earlier, a.path = mapPath "maps" "_front_https_host") ∧
      ∃ s ∈ readSections main.content, s.opening = ["frontend", "_front_https"] := by
  intro l
  obtain ⟨htargets, hroutes, hfiles, earlier, main, hrender, hpath, hhttps⟩ :=
    built_references_closed isBuilt_market l
  have hweb : "web" ∈ market.targets := List.mem_append_right _ (by decide +kernel)
  -- The route of the shop is an entry of the map of requests over TLS, so the templates see that map.
  have hentries : market.state.httpsEntries ≠ [] := by
    refine List.ne_nil_of_mem (DesiredState.mem_httpsEntries.mpr ⟨
      { hostname := "shop.local", certificate := some "shop.pem"
        routes := [⟨"/", "web"⟩, ⟨"/api", "api"⟩] }, ?_, rfl, rfl, ⟨"/", "web"⟩, ?_, rfl⟩) <;> decide
  have hseen : mapPath "maps" "_front_https_host" ∈ (market.context l).mapFiles :=
    Generation.mem_mapFiles_iff.mpr ⟨marketState.describedFrontends.https.hostMap,
      List.mem_append_left _ (List.mem_cons_of_mem _ List.mem_cons_self), hentries, rfl⟩
  obtain ⟨earlier', main', heq, -, hmaps⟩ := hfiles _ _ _ _ hrender
  obtain ⟨rfl, -⟩ := List.append_inj' heq rfl
  obtain ⟨-, -, -, a, ha, -, hapath⟩ := hmaps _ hseen
  exact ⟨isBuilt_market, hweb, htargets _ hweb, ((hroutes "web").2 _ mem_maps_market rfl).1,
    earlier', main, hrender, hpath, ⟨a, ha, hapath⟩, hhttps _ rfl (Or.inl hentries)⟩

end Rollout
