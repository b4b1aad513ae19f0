import Rollout.Proofs.Render.References
import Rollout.Proofs.Render.Servers

/-!
# Proofs/Render/Sections — the names of the sections

The sections of the main file take their names from two places: the ids of the backends, and the template,
which names the two frontends and, where they are needed, the filter's agents and the stream that is handed
on (`RenderContext.ownNames`).  The phases keep the ids apart from one another and from nothing else, and
they look at few of the texts that end up in a line.  Where those do not end it (`Generation.OneLiners`),
each section is read under its own name (`RenderContext.proxyNames_text`), so the names are distinct as
soon as no backend takes a name of the template (`section_names_distinct`).
-/

namespace Rollout

/-! ## The names that are read -/

/-- The words of the lines that open the sections of a text. -/
def openings (text : String) : List (List String) := (readSections text).map (·.opening)

/-- The name that a line gives to a section, if it opens one of some kinds. -/
def openedName (kinds : List String) : List String → Option String
  | kind :: name :: _ => if kinds.contains kind then some name else none
  | _ => none

/-- **The names of the sections of some kinds**, in the order of the text. -/
def sectionNames (kinds : List String) (text : String) : List String :=
  (openings text).filterMap (openedName kinds)

/-- **The names of the backends of a text**, those that listen themselves among them. -/
def proxyNames : String → List String := sectionNames ["backend", "listen"]

/-- **The names of the frontends of a text.** -/
def frontendNames : String → List String := sectionNames ["frontend"]

namespace ProxySection

/-- **A section that is read as it was meant.** -/
structure Tidy (p : ProxySection) : Prop where
  name : ∀ name ∈ p.name, IsWord name
  body : ∀ l ∈ p.body, StaysBelow l

/-- The name of a section of one of some kinds. -/
def nameAmong (kinds : List String) (p : ProxySection) : Option String :=
  if kinds.contains p.kind.word then p.name else none

/-- **A tidy section is read under its name.** -/
theorem sectionNames_text {p : ProxySection} (hp : p.Tidy) (kinds : List String) :
    sectionNames kinds p.text = (p.nameAmong kinds).toList := by
  cases hname : p.name with
  | none =>
    rw [sectionNames, openings,
      p.readSections_of_staysBelow (p.readLines_opening_of_unnamed hname) hp.body, nameAmong, hname,
      ite_self]
    rfl
  | some name =>
    have hword := hp.name name hname
    have hopened : openedName kinds [p.kind.word, name]
        = if kinds.contains p.kind.word then some name else none := rfl
    rw [sectionNames, openings, p.readSections_text hname hword.unbroken hp.body, hword.tokens_eq,
      nameAmong, hname, List.map_singleton, List.filterMap_cons, hopened]
    cases kinds.contains p.kind.word <;> rfl

end ProxySection

namespace RenderContext

variable {c : RenderContext}

/-- The names that the template itself gives to backends. -/
def ownNames (c : RenderContext) : List String :=
  (if c.globals.modsecurityEndpoints.isEmpty then [] else ["spoe-modsecurity"])
    ++ (shown c.passthroughMap).map fun _ => "_front__tls"

/-- The template gives no name twice. -/
theorem nodup_ownNames : c.ownNames.Nodup := by
  have hstreams : (shown c.passthroughMap).map (fun _ => "_front__tls") = [] ∨
      (shown c.passthroughMap).map (fun _ => "_front__tls") = ["_front__tls"] := by
    obtain hnone | ⟨map, -, hsome⟩ := shown_cases c.passthroughMap
    · exact Or.inl (congrArg (List.map _) hnone)
    · exact Or.inr (congrArg (List.map _) hsome)
  rw [ownNames]
  rcases hstreams with hstreams | hstreams <;> rw [hstreams] <;>
    cases c.globals.modsecurityEndpoints.isEmpty <;> decide

/-- The main file is read section by section, name by name. -/
theorem sectionNames_text (hc : ∀ p ∈ c.sections, p.Tidy) (kinds : List String) :
    sectionNames kinds c.text = c.sections.filterMap (ProxySection.nameAmong kinds) := by
  rw [sectionNames, openings, c.readSections_text, List.map_flatMap, List.filterMap_flatMap,
    List.filterMap_eq_flatMap_toList]
  exact List.flatMap_congr fun p hp => p.sectionNames_text (hc p hp) kinds

/-- **The backends that are read are those of the state**, and those of the template. -/
theorem proxyNames_text (hc : ∀ p ∈ c.sections, p.Tidy) :
    proxyNames c.text = c.backends.map (·.id) ++ c.ownNames := by
  let named := ProxySection.nameAmong ["backend", "listen"]
  have hprocess : [c.globalWritten, c.defaultsWritten].filterMap named = [] := rfl
  have hbackends : (c.backends.map BackendContext.written).filterMap named
      = c.backends.map (·.id) := by
    rw [List.filterMap_map]
    exact congrFun List.filterMap_eq_map' _
  have hagents : (if c.globals.modsecurityEndpoints.isEmpty then [] else
      [agentsWritten c.globals.modsecurityEndpoints]).filterMap named
        = if c.globals.modsecurityEndpoints.isEmpty then [] else ["spoe-modsecurity"] := by
    cases c.globals.modsecurityEndpoints.isEmpty <;> rfl
  have hstreams : ((shown c.passthroughMap).map c.passthroughWritten).filterMap named
      = (shown c.passthroughMap).map fun _ => "_front__tls" := by
    rw [List.filterMap_map]
    exact congrFun List.filterMap_eq_map' _
  have hhttp : [c.httpWritten].filterMap named = [] := rfl
  have hhttps : (if c.certificates.isEmpty then [] else [c.httpsWritten]).filterMap named = [] := by
    cases c.certificates.isEmpty <;> rfl
  rw [proxyNames, sectionNames_text hc, sections, ownSections, ownNames]
  simp only [List.filterMap_append]
  rw [hprocess, hbackends, hagents, hstreams, hhttp, hhttps]
  simp

/-- **The frontends that are read are those of the template.** -/
theorem frontendNames_text (hc : ∀ p ∈ c.sections, p.Tidy) : frontendNames c.text
    = c.http.name :: (if c.certificates.isEmpty then [] else [c.https.name]) := by
  let named := ProxySection.nameAmong ["frontend"]
  have hprocess : [c.globalWritten, c.defaultsWritten].filterMap named = [] := rfl
  have hbackends : (c.backends.map BackendContext.written).filterMap named = [] := by
    rw [List.filterMap_map]
    exact List.filterMap_eq_nil_iff.mpr fun _ _ => rfl
  have hagents : (if c.globals.modsecurityEndpoints.isEmpty then [] else
      [agentsWritten c.globals.modsecurityEndpoints]).filterMap named = [] := by
    cases c.globals.modsecurityEndpoints.isEmpty <;> rfl
  have hstreams : ((shown c.passthroughMap).map c.passthroughWritten).filterMap named = [] := by
    rw [List.filterMap_map]
    exact List.filterMap_eq_nil_iff.mpr fun _ _ => rfl
  have hhttp : [c.httpWritten].filterMap named = [c.http.name] := rfl
  have hhttps : (if c.certificates.isEmpty then [] else [c.httpsWritten]).filterMap named
      = if c.certificates.isEmpty then [] else [c.https.name] := by
    cases c.certificates.isEmpty <;> rfl
  rw [frontendNames, sectionNames_text hc, sections, ownSections]
  simp only [List.filterMap_append]
  rw [hprocess, hbackends, hagents, hstreams, hhttp, hhttps]
  simp

end RenderContext

/-! ## Texts that nothing checks -/

/-- **The texts that no phase looks at and that end up in a line do not end it.** -/
structure Generation.OneLiners (g : Generation) (l : Layout) : Prop where
  timeoutConnect : Unbroken g.state.globals.timeoutConnect
  timeoutClient : Unbroken g.state.globals.timeoutClient
  timeoutServer : Unbroken g.state.globals.timeoutServer
  bindHttp : Unbroken g.state.globals.bindHttp
  bindHttps : Unbroken g.state.globals.bindHttps
  agents : ∀ agent ∈ g.state.globals.modsecurityEndpoints, Unbroken agent
  certificates : ∀ h ∈ g.state.hosts, ∀ file ∈ h.certificate, Unbroken file
  balances : ∀ b ∈ g.backends, Unbroken b.balance
  addresses : ∀ b ∈ g.backends, ∀ s ∈ b.servers, s.enabled = false → Unbroken s.ip
  mapsDir : Unbroken l.mapsDir
  configDir : Unbroken l.configDir
  statsSocket : ∀ socket ∈ l.statsSocket, Unbroken socket

namespace RenderContext

variable {c : RenderContext}

/-- Texts in a row end no line if none of them does. -/
theorem unbroken_join : ∀ {ss : List String}, (∀ s ∈ ss, Unbroken s) → Unbroken (String.join ss)
  | [], _ => by decide
  | s :: ss, h => by
      obtain ⟨hs, hss⟩ := List.forall_mem_cons.mp h
      rw [String.join_cons]
      exact hs.append (unbroken_join hss)

theorem tidy_globalWritten (hsocket : ∀ socket ∈ c.statsSocket, Unbroken socket) :
    c.globalWritten.Tidy where
  name := nofun
  body l hl := by
    simp only [globalWritten, List.mem_append, List.mem_cons, List.not_mem_nil, or_false,
      List.mem_map] at hl
    obtain (rfl | rfl) | ⟨socket, hmem, rfl⟩ := hl
    · exact ⟨by decide, by decide, by decide⟩
    · exact (Anchored.append (by decide) (isWord_decimal _).unbroken).staysBelow
    · have hsocket := hsocket _ (eq_some_of_mem_shown hmem)
      exact ((Anchored.append (by decide) hsocket).append (by decide)).staysBelow

theorem tidy_defaultsWritten (hconnect : Unbroken c.globals.timeoutConnect)
    (hclient : Unbroken c.globals.timeoutClient) (hserver : Unbroken c.globals.timeoutServer) :
    c.defaultsWritten.Tidy where
  name := nofun
  body l hl := by
    simp only [defaultsWritten, List.mem_cons, List.not_mem_nil, or_false] at hl
    obtain rfl | rfl | rfl | rfl | rfl | rfl := hl
    · exact Anchored.staysBelow (by decide)
    · exact (Anchored.append (by decide) (isWord_decimal _).unbroken).staysBelow
    · exact Anchored.staysBelow (by decide)
    · exact (Anchored.append (by decide) hconnect).staysBelow
    · exact (Anchored.append (by decide) hclient).staysBelow
    · exact (Anchored.append (by decide) hserver).staysBelow

theorem tidy_agentsWritten {agents : List String} (hagents : ∀ agent ∈ agents, Unbroken agent) :
    (agentsWritten agents).Tidy where
  name := by
    rintro _ ⟨⟩
    decide
  body l hl := by
    simp only [agentsWritten, List.mem_append, List.mem_cons, List.not_mem_nil, or_false,
      List.mem_map] at hl
    obtain (rfl | rfl | rfl) | ⟨p, hp, rfl⟩ := hl
    · exact Anchored.staysBelow (by decide)
    · exact Anchored.staysBelow (by decide)
    · exact Anchored.staysBelow (by decide)
    · have hagent := hagents p.1 (List.fst_mem_of_mem_zipIdx hp)
      have hnumber := (isWord_decimal p.2).unbroken
      exact (((Anchored.append (by decide) hnumber).append (by decide)).append hagent).staysBelow

theorem tidy_passthroughWritten {map : String} (hbind : Unbroken c.globals.bindHttps)
    (hmap : Unbroken map) : (c.passthroughWritten map).Tidy where
  name := by
    rintro _ ⟨⟩
    decide
  body l hl := by
    simp only [passthroughWritten, List.mem_cons, List.not_mem_nil, or_false] at hl
    obtain rfl | rfl | rfl | rfl | rfl | rfl := hl
    · exact Anchored.staysBelow (by decide)
    · exact (Anchored.append (by decide) hbind).staysBelow
    · exact Anchored.staysBelow (by decide)
    · exact Anchored.staysBelow (by decide)
    · exact ((Anchored.append (by decide) hmap).append (by decide)).staysBelow
    · exact Anchored.staysBelow (by decide)

theorem staysBelow_routing {f : FrontendContext} (hmap : ∀ map ∈ f.mapFile, Unbroken map)
    (hdefault : ∀ id ∈ c.defaultBackend, Unbroken id) : ∀ l ∈ c.routing f, StaysBelow l := by
  intro l hl
  rcases List.mem_append.mp hl with hl | hl
  · obtain ⟨map, hmem, rfl⟩ := List.mem_map.mp hl
    have hmap := hmap _ (eq_some_of_mem_shown hmem)
    exact ((Anchored.append (by decide) hmap).append (by decide)).staysBelow
  · obtain ⟨id, hmem, rfl⟩ := List.mem_map.mp hl
    exact (Anchored.append (by decide) (hdefault _ (eq_some_of_mem_shown hmem))).staysBelow

theorem tidy_httpWritten (hname : IsWord c.http.name) (hbind : Unbroken c.http.bind)
    (hmaps : ∀ map ∈ c.mapFiles, Unbroken map) (hdefault : ∀ id ∈ c.defaultBackend, Unbroken id) :
    c.httpWritten.Tidy where
  name := by
    rintro _ ⟨⟩
    exact hname
  body l hl := by
    rcases List.mem_append.mp hl with hl | hl
    · simp only [List.mem_append, List.mem_cons, List.not_mem_nil, or_false, List.mem_map] at hl
      obtain (rfl | rfl) | ⟨map, hmem, rfl⟩ := hl
      · exact Anchored.staysBelow (by decide)
      · exact (Anchored.append (by decide) hbind).staysBelow
      · have hmap : Unbroken map := hmaps _ (by simp [mapFiles, eq_some_of_mem_shown hmem])
        exact ((Anchored.append (by decide) hmap).append (by decide)).staysBelow
    · refine staysBelow_routing (fun map hmem => hmaps _ ?_) hdefault l hl
      simp [mapFiles, Option.mem_def.mp hmem]

theorem tidy_httpsWritten (hname : IsWord c.https.name) (hbind : Unbroken c.https.bind)
    (hcertificates : ∀ file ∈ c.certificates, Unbroken file) (hfilter : Unbroken c.filterFile)
    (hmaps : ∀ map ∈ c.mapFiles, Unbroken map) (hdefault : ∀ id ∈ c.defaultBackend, Unbroken id) :
    c.httpsWritten.Tidy where
  name := by
    rintro _ ⟨⟩
    exact hname
  body l hl := by
    rcases List.mem_append.mp hl with hl | hl
    · rcases List.mem_append.mp hl with hl | hl
      · rcases List.mem_pair.mp hl with rfl | rfl
        · exact Anchored.staysBelow (by decide)
        · refine (((Anchored.append (by decide) hbind).append (by decide)).append ?_).staysBelow
          refine unbroken_join ?_
          rw [List.forall_mem_map]
          exact fun file hfile => .append (by decide) (hcertificates file hfile)
      · cases hagents : c.globals.modsecurityEndpoints.isEmpty with
        | true => simp [hagents] at hl
        | false =>
          rw [hagents] at hl
          rcases List.mem_pair.mp hl with rfl | rfl
          · exact (Anchored.append (by decide) hfilter).staysBelow
          · exact Anchored.staysBelow (by decide)
    · refine staysBelow_routing (fun map hmem => hmaps _ ?_) hdefault l hl
      simp [mapFiles, Option.mem_def.mp hmem]

end RenderContext

namespace Generation.IsBuilt

variable {g : Generation} {l : Layout}

/-- The files of the maps that are mentioned end no line. -/
theorem unbroken_of_mem_mapFiles (hg : g.IsBuilt) (hdir : Unbroken l.mapsDir) :
    ∀ map ∈ (g.context l).mapFiles, Unbroken map := by
  intro map hmap
  obtain ⟨m, hconsulted, -, rfl⟩ := mem_mapFiles_iff.mp hmap
  refine unbroken_mapPath hdir ?_
  rcases hg.name_of_mem_maps (g.consulted_subset_maps hconsulted) with hfixed | ⟨b, hb, hname⟩
  · have hnames : ∀ name ∈ frontendMapNames, Unbroken name := by decide
    exact hnames _ hfixed
  · rw [← hname]
    exact (hg.sound b hb).id.isWord.unbroken.append (by decide)

/-- The backend that takes what nothing else takes has the name of a backend. -/
theorem unbroken_defaultBackend (hg : g.IsBuilt) :
    ∀ id ∈ (g.context l).defaultBackend, Unbroken id := by
  intro id hid
  obtain ⟨b, hb, rfl⟩ := List.mem_map.mp
    (DesiredState.declares_iff.mp (hg.sound_state.fallback id hid))
  exact (hg.sound b hb).id.isWord.unbroken

theorem name_http (hg : g.IsBuilt) : (g.context l).http.name = httpFrontendName := by
  rw [context, hg.frontends_eq]
  rfl

theorem name_https (hg : g.IsBuilt) : (g.context l).https.name = httpsFrontendName := by
  rw [context, hg.frontends_eq]
  rfl

theorem bind_http (hg : g.IsBuilt) : (g.context l).http.bind = g.state.globals.bindHttp := by
  rw [context, hg.frontends_eq]
  rfl

/-- The frontend that terminates TLS listens where it is told to, or at a fixed place. -/
theorem unbroken_bind_https (ht : g.OneLiners l) : Unbroken (g.context l).https.bind := by
  have hbind : (g.context l).https.bind = if (g.context l).passthroughMap.isSome then
      terminationSocket ++ " accept-proxy" else g.state.globals.bindHttps := rfl
  rw [hbind]
  split_ifs
  · decide
  · exact ht.bindHttps

/-- The section of a backend is tidy. -/
theorem tidy_written (hg : g.IsBuilt) (ht : g.OneLiners l) {b : Backend} (hb : b ∈ g.backends) :
    (g.backendContext l.mapsDir b).written.Tidy where
  name := by
    rintro _ ⟨⟩
    exact (hg.sound b hb).id.isWord
  body := by
    refine staysBelow_written (hg.sound b hb) (ht.balances b hb) (fun s hs => ?_) ht.mapsDir
    cases he : s.enabled with
    | true => exact (Server.legible_of_enabled ((hg.sound b hb).servers s hs) he).2
    | false => exact ht.addresses b hb s hs he

/-- **Every section of a built generation is tidy**, if the texts that nothing checks end no line. -/
theorem tidy_sections (hg : g.IsBuilt) (ht : g.OneLiners l) :
    ∀ p ∈ (g.context l).sections, p.Tidy := by
  have hmaps := hg.unbroken_of_mem_mapFiles ht.mapsDir
  have hdefault := hg.unbroken_defaultBackend (l := l)
  have hcertificates : ∀ file ∈ (g.context l).certificates, Unbroken file := by
    intro file hfile
    obtain ⟨h, hh, -, hcertificate⟩ := DesiredState.mem_certificates.mp hfile
    exact ht.certificates h hh file hcertificate
  have hfilter : Unbroken (g.context l).filterFile := unbroken_path ht.configDir (by decide)
  have hown : ∀ p ∈ (g.context l).ownSections, p.Tidy := by
    simp only [RenderContext.ownSections, List.forall_mem_append, List.forall_mem_map,
      List.forall_mem_singleton]
    refine ⟨⟨⟨?_, fun map hmem => ?_⟩, ?_⟩, ?_⟩
    · split_ifs
      · exact List.forall_mem_nil _
      · exact List.forall_mem_singleton.mpr (RenderContext.tidy_agentsWritten ht.agents)
    · have hmap : Unbroken map := hmaps _ (by
        simp [RenderContext.mapFiles, eq_some_of_mem_shown hmem])
      exact RenderContext.tidy_passthroughWritten ht.bindHttps hmap
    · refine RenderContext.tidy_httpWritten ?_ ?_ hmaps hdefault
      · rw [hg.name_http]
        decide
      · rw [hg.bind_http]
        exact ht.bindHttp
    · split_ifs
      · exact List.forall_mem_nil _
      · refine List.forall_mem_singleton.mpr (RenderContext.tidy_httpsWritten ?_
          (unbroken_bind_https ht) hcertificates hfilter hmaps hdefault)
        rw [hg.name_https]
        decide
  have hprocess : ∀ p ∈ [(g.context l).globalWritten, (g.context l).defaultsWritten], p.Tidy :=
    List.forall_mem_cons.mpr ⟨RenderContext.tidy_globalWritten ht.statsSocket,
      List.forall_mem_singleton.mpr
        (RenderContext.tidy_defaultsWritten ht.timeoutConnect ht.timeoutClient ht.timeoutServer)⟩
  have hbackends : ∀ p ∈ (g.context l).backends.map BackendContext.written, p.Tidy := by
    rw [List.forall_mem_map]
    exact List.forall_mem_map.mpr fun b hb => hg.tidy_written ht hb
  exact List.forall_mem_append.mpr ⟨List.forall_mem_append.mpr ⟨hprocess, hbackends⟩, hown⟩

/-- A stream is handed on only if a host asks for it and has a route. -/
theorem exists_of_passthroughMap (hg : g.IsBuilt) {map : String}
    (hmap : (g.context l).passthroughMap = some map) :
    ∃ h ∈ g.state.hosts, h.passthrough = true ∧ h.routes ≠ [] := by
  have hreference : g.state.describedFrontends.passthrough.reference l.mapsDir = some map := by
    rw [← hmap, context, hg.frontends_eq]
    rfl
  obtain ⟨e, he⟩ := List.exists_mem_of_ne_nil _ (MapFile.reference_eq_some_iff.mp hreference).1
  obtain ⟨h, hh, hpass, r, hr, -⟩ := DesiredState.mem_passthroughEntries.mp he
  exact ⟨h, hh, hpass, List.ne_nil_of_mem (Host.mem_sortedRoutes.mp (List.mem_of_mem_head? hr))⟩

/-- **The names that the template gives are no ids**, under the condition that it gives them. -/
theorem nodup_ids_ownNames (hg : g.IsBuilt)
    (hagents : "spoe-modsecurity" ∈ g.backends.map (·.id) →
      g.state.globals.modsecurityEndpoints = [])
    (hstreams : "_front__tls" ∈ g.backends.map (·.id) →
      ∀ h ∈ g.state.hosts, h.passthrough = true → h.routes = []) :
    (g.backends.map (·.id) ++ (g.context l).ownNames).Nodup := by
  refine List.nodup_append.mpr ⟨hg.nodup_ids, RenderContext.nodup_ownNames, fun id hid name hname => ?_⟩
  rintro rfl
  rcases List.mem_append.mp hname with hname | hname
  · split_ifs at hname with hempty
    · exact absurd hname List.not_mem_nil
    · obtain rfl := List.mem_singleton.mp hname
      exact hempty (List.isEmpty_iff.mpr (hagents hid))
  · obtain ⟨map, hmap, rfl⟩ := List.mem_map.mp hname
    obtain ⟨h, hh, hpass, hroutes⟩ := hg.exists_of_passthroughMap (eq_some_of_mem_shown hmap)
    exact hroutes (hstreams hid h hh hpass)

end Generation.IsBuilt

/-- **No two sections of a kind have the same name.**  A built generation is rendered with the built-in
templates.  Unless a text that nothing checks ends a line, or a backend has a name that the template gives
as well, no two backends of the main file have the same name, whether they are those of the state, the
filter's agents or the stream that is handed on, and no two frontends have. -/
theorem section_names_distinct {g : Generation} (hg : g.IsBuilt) (l : Layout) (ht : g.OneLiners l)
    (hagents : "spoe-modsecurity" ∈ g.backends.map (·.id) →
      g.state.globals.modsecurityEndpoints = [])
    (hstreams : "_front__tls" ∈ g.backends.map (·.id) →
      ∀ h ∈ g.state.hosts, h.passthrough = true → h.routes = []) :
    ∃ earlier main, (Renderer.builtin l).render g = .ok (earlier ++ [main]) ∧
      main.path = l.configFile ∧
      (proxyNames main.content).Nodup ∧ (frontendNames main.content).Nodup := by
  refine ⟨_, _, Renderer.render_builtin l g, rfl, ?_, ?_⟩
  · rw [RenderContext.proxyNames_text (hg.tidy_sections ht)]
    have hids : (g.context l).backends.map (·.id) = g.backends.map (·.id) := List.map_map
    rw [hids]
    exact hg.nodup_ids_ownNames hagents hstreams
  · rw [RenderContext.frontendNames_text (hg.tidy_sections ht), hg.name_http, hg.name_https]
    cases (g.context l).certificates.isEmpty <;> decide

/-- The market with agents of the filter: every section that the template can write. -/
def guardedMarket : Generation :=
  ({ marketState with globals := { modsecurityEndpoints := ["10.0.0.9:12345"] } } :
    DesiredState).described

/-- All sections of the template next to three backends. -/
theorem section_names_distinct_market :
    let l : Layout := { configFile := "haproxy.cfg", configDir := ".", mapsDir := "maps" }
    guardedMarket.IsBuilt ∧
    ∃ earlier main, (Renderer.builtin l).render guardedMarket = .ok (earlier ++ [main]) ∧
      main.path = "haproxy.cfg" ∧
      (proxyNames main.content).Nodup ∧ (frontendNames main.content).Nodup := by
  intro l
  have hbuilt : guardedMarket.IsBuilt := DesiredState.Sound.isBuilt (by decide +kernel)
  have hlines : guardedMarket.OneLiners l := ⟨by decide, by decide, by decide, by decide, by decide,
    by decide, by decide, by decide, by decide, by decide, by decide, by decide⟩
  exact ⟨hbuilt, section_names_distinct hbuilt l hlines (by decide) (by decide)⟩

/-- Two backends with the names that the template gives, and two texts that go on with a section of
their own. -/
def repeatedState : DesiredState where
  globals := {
    bindHttp := ":80\nfrontend _front_http"
    modsecurityEndpoints := ["127.0.0.1:12345"] }
  hosts := [{ hostname := "mail.local", routes := [⟨"/", "mail"⟩], passthrough := true }]
  backends := [
    { id := "mail", mode := .tcp, balance := "roundrobin\nbackend mail" },
    { id := "spoe-modsecurity" },
    { id := "_front__tls" }]

/-- **Names of sections are repeated** by texts that nothing checks, and by ids that the template takes as
well.  Building succeeds. -/
theorem section_names_repeated :
    let l : Layout := { configFile := "haproxy.cfg", configDir := ".", mapsDir := "maps" }
    ∃ g earlier main, (Generation.ofState repeatedState).build = (.ok (), g) ∧
      (Renderer.builtin l).render g = .ok (earlier ++ [main]) ∧ main.path = "haproxy.cfg" ∧
      proxyNames main.content = ["mail", "mail", "spoe-modsecurity", "_front__tls",
        "spoe-modsecurity", "_front__tls"] ∧
      frontendNames main.content = ["_front_http", "_front_http"] ∧
      ¬ (proxyNames main.content).Nodup ∧ ¬ (frontendNames main.content).Nodup := by
  intro l
  have hbuild : (Generation.ofState repeatedState).build.1 = .ok () := by decide +kernel
  have hopenings : openings (((Generation.ofState repeatedState).build.2.context l).text) = [
      ["global"], ["defaults"], ["backend", "mail"], ["backend", "mail"], ["backend", "spoe-modsecurity"],
      ["backend", "_front__tls"], ["backend", "spoe-modsecurity"], ["listen", "_front__tls"],
      ["frontend", "_front_http"], ["frontend", "_front_http"]] := by
    -- Line by line, no text longer than a line is ever cut.
    rw [openings, RenderContext.readSections_lines]
    decide +kernel
  refine ⟨(Generation.ofState repeatedState).build.2, _, _, Prod.ext hbuild rfl,
    Renderer.render_builtin l _, rfl, ?_⟩
  simp only [proxyNames, frontendNames, sectionNames, hopenings]
  decide +kernel

end Rollout
