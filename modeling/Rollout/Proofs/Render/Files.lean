import Rollout.Proofs.Render.Map
import Rollout.Proofs.System.Path
import Rollout.Render.Replace

/-!
# Proofs/Render/Files — the files of a generation

Rendering a generation lists a file for every map, and then those of the main templates
(`render_eq_ok_iff`); where they lie depends on the layout and on the names of the maps only
(`map_path_of_render`).  With the built-in templates no file is looked at (`parse_builtin`), and nothing can
fail (`render_builtin`).

The names of the maps of a built generation are distinct (`IsBuilt.nodup_names_maps`): four are fixed,
and the others end as none of these does.  The file of a map is a single name below the directory of
the maps, and so is its draft.
-/

namespace Rollout

namespace Renderer

variable {τ : Type} [TemplateEngine τ] {r : Renderer τ} {g : Generation}

/-! ## Where files lie -/

theorem path_of_renderMap {file : MapFile} {a : Artifact} (h : r.renderMap file = .ok a) :
    a.path = mapPath r.layout.mapsDir file.name := by
  obtain ⟨content, -, h⟩ := bind_eq_ok_iff.mp h
  exact (Except.ok.inj h) ▸ rfl

/-- A main template has at most one file, which its registration names. -/
theorem path_of_renderMain {data : Value} {t : Registered τ} {as : List Artifact}
    (h : r.renderMain data t = .ok as) : as.map (·.path) = t.info.output.toList := by
  rw [renderMain] at h
  cases hpath : t.info.output with
  | none =>
    rw [hpath] at h
    exact (Except.ok.inj h) ▸ rfl
  | some path =>
    rw [hpath] at h
    obtain ⟨content, -, h⟩ := bind_eq_ok_iff.mp h
    exact (Except.ok.inj h) ▸ rfl

/-- **When rendering succeeds, and with what**: a file for every map, then those of the main
templates. -/
theorem render_eq_ok_iff {files : List Artifact} : r.render g = .ok files ↔ r.main ≠ [] ∧
    ∃ maps others, List.Forall₂ (fun m a => r.renderMap m = .ok a) g.maps maps ∧
      List.Forall₂ (fun t as => r.renderMain (g.context r.layout).toValue t = .ok as) r.main others ∧
      maps ++ others.flatten = files := by
  rw [render]
  cases hmain : r.main with
  | nil => simp
  | cons t ts =>
    simp only [List.isEmpty_cons, Bool.false_eq_true, if_false, bind_eq_ok_iff, mapM_eq_ok_iff, pure,
      Except.pure, Except.ok.injEq, ne_eq, reduceCtorEq, not_false_eq_true, true_and]
    exact ⟨fun ⟨maps, hmaps, others, hrest⟩ => ⟨maps, others, hmaps, hrest⟩,
      fun ⟨maps, others, hmaps, hrest⟩ => ⟨maps, hmaps, others, hrest⟩⟩

/-- **Where the files of a generation lie**: those of the maps in their directory, each under the name
of its map, and the others where the templates say. -/
theorem map_path_of_render {files : List Artifact} (h : r.render g = .ok files) :
    files.map (·.path) = g.maps.map (fun m => mapPath r.layout.mapsDir m.name)
      ++ r.main.flatMap (·.info.output.toList) := by
  obtain ⟨-, maps, others, hmaps, hothers, rfl⟩ := render_eq_ok_iff.mp h
  have hpaths : others.map (List.map (·.path)) = r.main.map (·.info.output.toList) :=
    map_eq_of_forall₂ hothers fun t as ht => path_of_renderMain ht
  rw [List.map_append, map_eq_of_forall₂ hmaps fun m a hm => path_of_renderMap hm, List.map_flatten,
    hpaths, List.flatMap_def]

/-- **The file of the template that is registered last comes last**, behind those of the maps. -/
theorem exists_last_of_render {before : TemplateSet τ} {t : Registered τ} {path : String}
    {files : List Artifact} (hmain : r.main = before ++ [t]) (hpath : t.info.output = some path)
    (h : r.render g = .ok files) :
    ∃ maps others main, maps ++ others ++ [main] = files ∧
      List.Forall₂ (fun m a => r.renderMap m = .ok a) g.maps maps ∧ main.path = path := by
  obtain ⟨-, maps, others, hmaps, hothers, rfl⟩ := render_eq_ok_iff.mp h
  rw [hmain, ← List.reverse_reverse others, ← List.forall₂_reverse_iff, List.reverse_append,
    List.reverse_reverse, List.reverse_singleton, List.singleton_append,
    List.forall₂_cons_left_iff] at hothers
  obtain ⟨as, rest, hlast, -, hreverse⟩ := hothers
  have hpaths : as.map (·.path) = [path] := (path_of_renderMain hlast).trans (by rw [hpath]; rfl)
  obtain ⟨main, rfl, hmain⟩ := List.map_eq_singleton_iff.mp hpaths
  refine ⟨maps, rest.reverse.flatten, main, ?_, hmaps, hmain⟩
  rw [← List.reverse_reverse others, hreverse, List.reverse_cons, List.flatten_append,
    List.flatten_singleton, List.append_assoc]

end Renderer

/-! ## Registered templates -/

/-- A layout with three templates registered for it. -/
def Renderer.ofTemplates {τ : Type} (l : Layout) (filter proxy map : τ) : Renderer τ where
  layout := l
  main := [⟨filterInfo l, filter⟩, ⟨proxyInfo l, proxy⟩]
  maps := [⟨mapInfo, map⟩]

namespace Renderer

/-- **A layout with the built-in templates.** -/
def builtin (l : Layout) : Renderer := ofTemplates l Builtin.filter Builtin.proxy Builtin.map

/-- **A layout that asks for the built-in templates gets them**, without a look at any file. -/
theorem parse_builtin {m : Type → Type} [Monad m] [LawfulMonad m] [FileSystem m] (r : Renderer)
    (hfilter : r.layout.filterTemplate = .embedded) (hproxy : r.layout.proxyTemplate = .embedded)
    (hmap : r.layout.mapTemplate = .embedded) :
    (r.parse : m _) = pure (.ok (), builtin r.layout) := by
  have hadd (info : TemplateInfo) (t : Template) (s : TemplateSet) :
      (TemplateSet.add info t .embedded s : m _) = pure (.ok (s.insert ⟨info, t⟩)) := rfl
  simp only [parse, hfilter, hproxy, hmap, hadd, pure_bind]
  rfl

end Renderer

/-- The settings of the request filter; there are none without agents. -/
def RenderContext.filterText (c : RenderContext) : String :=
  "# Generated by haconf " ++ version ++ "."
    ++ (if c.globals.modsecurityEndpoints.isEmpty then "" else
      "\n[modsecurity]\nspoe-agent modsecurity-agent"
        ++ indent ["messages check-request", "option var-prefix modsec", "timeout hello 100ms",
          "timeout idle 30s", "timeout processing 1s", "use-backend spoe-modsecurity"]
        ++ "\n\nspoe-message check-request"
        ++ indent ["args unique-id method path query req.ver req.hdrs_bin req.body_size req.body",
          "event on-frontend-http-request"])
    ++ "\n"

set_option maxRecDepth 2000 in
/-- **The file of the request filter can be filled in**, for every context. -/
theorem RenderContext.evaluate_filter (c : RenderContext) :
    Builtin.filter.evaluate c.toValue = .ok c.filterText := by
  have hfills : Fills c.scope Builtin.filter _ :=
    .text <| .of rfl <| .text <| .whenAny rfl (.text .nil) <| .text .nil
  refine hfills.congr ?_
  unfold filterText
  cases c.globals.modsecurityEndpoints.isEmpty <;>
  · simp only [indent_cons, indent_nil, Value.fill_text, String.append_assoc, String.append_empty]
    rfl

/-- **With the built-in templates every generation is rendered.** -/
theorem Renderer.render_builtin (l : Layout) (g : Generation) : (builtin l).render g = .ok (
    g.maps.map (fun m => { path := mapPath l.mapsDir m.name, content := m.text })
      ++ [{ path := l.filterFile, content := (g.context l).filterText }]
      ++ [{ path := l.configFile, content := (g.context l).text, maxOldFiles := l.maxOldFiles }]) := by
  have hmap (m : MapFile) : (builtin l).renderMap m
      = .ok { path := mapPath l.mapsDir m.name, content := m.text } := by
    have hcontent : (builtin l).maps.render mapName m.templateValue = .ok m.text := m.render_map []
    rw [renderMap, hcontent]
    rfl
  have hfilter : (builtin l).renderMain (g.context l).toValue ⟨filterInfo l, Builtin.filter⟩
      = .ok [{ path := l.filterFile, content := (g.context l).filterText }] := by
    have hcontent : (builtin l).main.render filterName (g.context l).toValue
        = .ok (g.context l).filterText :=
      congrArg (Except.mapError (RenderError.evaluation filterName)) (g.context l).evaluate_filter
    rw [renderMain]
    exact bind_eq_ok_iff.mpr ⟨_, hcontent, rfl⟩
  have hproxy : (builtin l).renderMain (g.context l).toValue ⟨proxyInfo l, Builtin.proxy⟩ = .ok [
      { path := l.configFile, content := (g.context l).text, maxOldFiles := l.maxOldFiles }] := by
    have hcontent : (builtin l).main.render proxyName (g.context l).toValue
        = .ok (g.context l).text := (g.context l).render_proxy l [⟨filterInfo l, Builtin.filter⟩]
    rw [renderMain]
    exact bind_eq_ok_iff.mpr ⟨_, hcontent, rfl⟩
  refine render_eq_ok_iff.mpr ⟨List.cons_ne_nil _ _, _, _, ?_,
    .cons hfilter (.cons hproxy .nil), (List.append_assoc _ _ _).symm⟩
  rw [List.forall₂_map_right_iff, List.forall₂_same]
  exact fun m _ => hmap m

/-! ## The files of maps -/

/-- **No two backends share the name of a map.** -/
theorem pathsMapName_injective : Function.Injective pathsMapName :=
  fun _ _ h => (String.append_left_inj "_paths").mp h

/-- The map of a backend is none of the four that every generation has. -/
theorem pathsMapName_not_mem (id : String) : pathsMapName id ∉ frontendMapNames := by
  have hsuffix : ∀ name ∈ frontendMapNames, ¬ "_paths".toList <:+ name.toList := by decide
  intro hmem
  refine hsuffix _ hmem ?_
  rw [pathsMapName, String.toList_append]
  exact List.suffix_append _ _

namespace Generation.IsBuilt

variable {g : Generation} {m : MapFile}

/-- **The names of the maps are distinct.** -/
theorem nodup_names_maps (hg : g.IsBuilt) : (g.maps.map (·.name)).Nodup := by
  have hfixed : frontendMapNames.Nodup := by decide
  have hrouted : (g.state.routedBackends.map pathsMapName).Nodup :=
    g.state.nodup_routedBackends.map pathsMapName_injective
  rw [hg.names_maps]
  refine hfixed.append hrouted fun name hname hmem => ?_
  obtain ⟨id, -, rfl⟩ := List.mem_map.mp hmem
  exact pathsMapName_not_mem id hname

/-- **A map makes a file name.** -/
theorem isName_map (hg : g.IsBuilt) (hm : m ∈ g.maps) : Path.IsName (m.name ++ ".map") := by
  refine .append ?_ (by decide) (by decide)
  rcases hg.name_of_mem_maps hm with hname | ⟨b, hb, hname⟩
  · have hfixed : ∀ name ∈ frontendMapNames, '/' ∉ name.toList ∧ 2 < name.length := by decide
    exact .of_length (hfixed _ hname).1 (hfixed _ hname).2
  · refine .of_length ?_ ?_
    · rw [← hname, pathsMapName, String.toList_append, List.mem_append, not_or]
      exact ⟨(hg.sound b hb).id.no_slash, by decide⟩
    · rw [← hname, pathsMapName, String.length_append]
      exact Nat.lt_of_lt_of_le (by decide) (Nat.le_add_left _ _)

end Generation.IsBuilt

/-- The draft of a file is a name if the file is. -/
theorem isName_draftOf {name : String} (h : Path.IsName name) : Path.IsName (draftOf name) :=
  h.append (by decide) (by decide)

/-- The draft of a map's file lies beside it. -/
theorem draftOf_mapPath (dir : String) {name : String} (h : Path.IsName (name ++ ".map")) :
    draftOf (mapPath dir name) = Path.join dir (draftOf (name ++ ".map")) :=
  Path.join_append dir h (isName_draftOf h)

/-- **The names of map files and of their drafts are distinct** as those of the maps are. -/
theorem nodup_file_names {names : List String} (h : names.Nodup) :
    (names.map (· ++ ".map") ++ names.map fun name => draftOf (name ++ ".map")).Nodup := by
  have hfile : Function.Injective fun name : String => name ++ ".map" :=
    fun _ _ h => (String.append_left_inj ".map").mp h
  have hdraft : Function.Injective fun name : String => draftOf (name ++ ".map") :=
    fun _ _ h => hfile ((String.append_left_inj ".haconf.tmp").mp h)
  refine (h.map hfile).append (h.map hdraft) fun file hfile hdraft => ?_
  obtain ⟨name, -, rfl⟩ := List.mem_map.mp hfile
  obtain ⟨name', -, heq⟩ := List.mem_map.mp hdraft
  -- The two end differently.
  have hmap : ".map".toList <:+ (name ++ ".map").toList := by
    rw [String.toList_append]
    exact List.suffix_append _ _
  have htmp : ".tmp".toList <:+ (name ++ ".map").toList := by
    have hend : ".tmp".toList <:+ ".haconf.tmp".toList := by decide
    rw [← heq, draftOf, String.toList_append]
    exact hend.trans (List.suffix_append _ _)
  have hne : ¬ ".tmp".toList <:+ ".map".toList := by decide
  exact hne (List.suffix_of_suffix_length_le htmp hmap (by decide))

/-- **The files of maps are distinct and lie in their directory.**  The maps of a built generation
have distinct names.  Below any directory the file of a map is one step further, under a name that is
neither empty nor a way to another directory, and so is the draft that it is written as; no two of them
share a place, however the directory is spelled.  Whatever the templates are, these are the files that
rendering lists first. -/
theorem map_files_distinct_below_directory {g : Generation} (hg : g.IsBuilt) :
    (g.maps.map (·.name)).Nodup ∧
    (∀ dir : String, ∀ m ∈ g.maps, Path.IsName (m.name ++ ".map") ∧
      Path.isAbsolute (mapPath dir m.name) = Path.isAbsolute dir ∧
      Path.steps (mapPath dir m.name) = Path.steps dir ++ [m.name ++ ".map"] ∧
      Path.steps (draftOf (mapPath dir m.name)) = Path.steps dir ++ [draftOf (m.name ++ ".map")]) ∧
    (∀ dir : String, (g.maps.map (fun m => Path.steps (mapPath dir m.name))
      ++ g.maps.map fun m => Path.steps (draftOf (mapPath dir m.name))).Nodup) ∧
    ∀ {τ : Type} [TemplateEngine τ] (r : Renderer τ) (files : List Artifact), r.render g = .ok files →
      files.map (·.path) = g.maps.map (fun m => mapPath r.layout.mapsDir m.name)
        ++ r.main.flatMap (·.info.output.toList) := by
  have hfile (dir : String) {m : MapFile} (hm : m ∈ g.maps) :
      Path.steps (mapPath dir m.name) = Path.steps dir ++ [m.name ++ ".map"] :=
    Path.steps_join dir (hg.isName_map hm)
  have hdraft (dir : String) {m : MapFile} (hm : m ∈ g.maps) :
      Path.steps (draftOf (mapPath dir m.name)) = Path.steps dir ++ [draftOf (m.name ++ ".map")] := by
    rw [draftOf_mapPath dir (hg.isName_map hm)]
    exact Path.steps_join dir (isName_draftOf (hg.isName_map hm))
  refine ⟨hg.nodup_names_maps, fun dir m hm => ?_, fun dir => ?_, fun r files h =>
    Renderer.map_path_of_render h⟩
  · have hname := hg.isName_map hm
    exact ⟨hname, Path.isAbsolute_join dir hname, hfile dir hm, hdraft dir hm⟩
  · have hlast : Function.Injective fun name : String => Path.steps dir ++ [name] := fun _ _ h =>
      (List.cons.inj (List.append_cancel_left h)).1
    have hnames := (nodup_file_names hg.nodup_names_maps).map hlast
    rw [List.map_append, List.map_map, List.map_map, List.map_map, List.map_map] at hnames
    rw [List.map_congr_left fun m hm => hfile dir hm, List.map_congr_left fun m hm => hdraft dir hm]
    exact hnames

/-- The map of a backend that two hosts route to. -/
theorem map_files_distinct_below_directory_market :
    let l : Layout := { configFile := "haproxy.cfg", configDir := ".", mapsDir := "/etc/maps/" }
    ∃ files, market.IsBuilt ∧ marketState.pathsMap "web" ∈ market.maps ∧
      (Renderer.builtin l).render market = .ok files ∧
      (market.maps.map (·.name)).Nodup ∧
      Path.steps (mapPath l.mapsDir "web_paths") = ["etc", "maps", "web_paths.map"] ∧
      (files.map (·.path)).take market.maps.length
        = market.maps.map (fun m => mapPath l.mapsDir m.name) := by
  intro l
  obtain ⟨hnames, hbelow, -, hfiles⟩ := map_files_distinct_below_directory isBuilt_market
  have hrender := Renderer.render_builtin l market
  have hweb := (hbelow l.mapsDir _ mem_maps_market).2.2.1
  refine ⟨_, isBuilt_market, mem_maps_market, hrender, hnames, hweb.trans (by decide +kernel), ?_⟩
  rw [hfiles _ _ hrender]
  exact List.take_left' (List.length_map _)

end Rollout
