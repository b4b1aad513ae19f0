import Rollout.Proofs.Render.Files
import Rollout.Proofs.System.Reading
import Rollout.Render.Compare

/-!
# Proofs/Render/Templates — all templates or none

Registering the templates of a layout starts from nothing and stops at the first one that cannot be had.
So either all three are registered, as their sources spell them at that moment (`Layout.Spells`), or one
of the two sets is empty, and no file of a built generation can be rendered (`render_of_unready`): it has
maps, and the template of the maps is the last one to be registered.  However often the templates were
registered before, the last attempt decides (`no_partial_templates`).  All this holds with any engine.
-/

namespace Rollout

variable {τ σ : Type} [TemplateEngine τ] [HasFileTree σ]

/-! ## One attempt -/

/-- **The template that a source spells**, beside those that are registered: the built-in one, or what a
file of the tree holds. -/
def TemplateSource.spelled (t : FileTree) (registered : List (String × τ)) (builtin : τ) :
    TemplateSource → Option τ
  | .embedded => some builtin
  | .file path =>
    match t.readText path with
    | .ok text => TemplateEngine.parse? registered text
    | .error _ => none

/-- **The three sources of a layout spell three templates.** -/
structure Layout.Spells (l : Layout) (t : FileTree) (f p m : τ) : Prop where
  filter : l.filterTemplate.spelled t [] (TemplateEngine.ofParts Builtin.filter) = some f
  proxy : l.proxyTemplate.spelled t [(Renderer.filterName, f)]
    (TemplateEngine.ofParts Builtin.proxy) = some p
  map : l.mapTemplate.spelled t [] (TemplateEngine.ofParts Builtin.map) = some m

/-- **Adding a template adds what its source spells**, and fails if that is nothing. -/
theorem TemplateSet.exists_add_eq (info : TemplateInfo) (builtin : τ) (source : TemplateSource)
    (s : TemplateSet τ) (w : σ) :
    ∃ e, (add info builtin source s : StateM σ _) w =
      (match source.spelled (HasFileTree.tree w) s.named builtin with
        | some template => .ok (s.insert ⟨info, template⟩)
        | none => .error e, w) := by
  cases source with
  | embedded => exact ⟨.unknownTemplate "", rfl⟩
  | file path =>
    simp only [add, bind, StateT.bind, readText_looks path w, TemplateSource.spelled]
    cases (HasFileTree.tree w).readText path with
    | error fault => exact ⟨.io path fault, rfl⟩
    | ok text =>
      refine ⟨.parse info.name "not a template", ?_⟩
      simp only [register]
      cases TemplateEngine.parse? s.named text <;> rfl

/-- **A renderer that lacks a template**: one of its two sets is empty. -/
def Renderer.Unready (r : Renderer τ) : Prop := r.main = [] ∨ r.maps = []

/-- **One attempt registers three templates, or too few.** -/
theorem Renderer.parse_cases (r : Renderer τ) (w : σ) :
    (∃ filter proxy map, r.layout.Spells (HasFileTree.tree w) filter proxy map ∧
      (r.parse : StateM σ _) w = ((.ok (), ofTemplates r.layout filter proxy map), w)) ∨
    ∃ e r', (r.parse : StateM σ _) w = ((.error e, r'), w) ∧ r'.layout = r.layout ∧ r'.Unready := by
  obtain ⟨e₁, hfilter⟩ := TemplateSet.exists_add_eq (filterInfo r.layout)
    (TemplateEngine.ofParts Builtin.filter : τ) r.layout.filterTemplate [] w
  simp only [TemplateSet.named, List.map_nil] at hfilter
  cases hf : r.layout.filterTemplate.spelled (HasFileTree.tree w) []
    (TemplateEngine.ofParts Builtin.filter : τ) with
  | none =>
    rw [hf] at hfilter
    refine .inr ⟨e₁, { r with main := [], maps := [] }, ?_, rfl, .inl rfl⟩
    simp only [parse, bind, StateT.bind, hfilter]
    rfl
  | some filter =>
    rw [hf] at hfilter
    obtain ⟨e₂, hproxy⟩ := TemplateSet.exists_add_eq (proxyInfo r.layout)
      (TemplateEngine.ofParts Builtin.proxy : τ) r.layout.proxyTemplate
      (TemplateSet.insert ⟨filterInfo r.layout, filter⟩ []) w
    have hnamed : (TemplateSet.insert ⟨filterInfo r.layout, filter⟩ []).named
        = [(filterName, filter)] := rfl
    rw [hnamed] at hproxy
    cases hp : r.layout.proxyTemplate.spelled (HasFileTree.tree w) [(filterName, filter)]
      (TemplateEngine.ofParts Builtin.proxy : τ) with
    | none =>
      rw [hp] at hproxy
      refine .inr ⟨e₂, { r with main := [⟨filterInfo r.layout, filter⟩], maps := [] }, ?_, rfl,
        .inr rfl⟩
      simp only [parse, bind, StateT.bind, hfilter, hproxy]
      rfl
    | some proxy =>
      rw [hp] at hproxy
      obtain ⟨e₃, hmap⟩ := TemplateSet.exists_add_eq mapInfo
        (TemplateEngine.ofParts Builtin.map : τ) r.layout.mapTemplate [] w
      simp only [TemplateSet.named, List.map_nil] at hmap
      cases hm : r.layout.mapTemplate.spelled (HasFileTree.tree w) []
        (TemplateEngine.ofParts Builtin.map : τ) with
      | none =>
        rw [hm] at hmap
        refine .inr ⟨e₃, { ofTemplates r.layout filter proxy proxy with maps := [] }, ?_, rfl,
          .inr rfl⟩
        simp only [parse, bind, StateT.bind, hfilter, hproxy, hmap]
        rfl
      | some map =>
        rw [hm] at hmap
        refine .inl ⟨filter, proxy, map, ⟨hf, hp, hm⟩, ?_⟩
        simp only [parse, bind, StateT.bind, hfilter, hproxy, hmap]
        rfl

/-! ## What can be rendered then -/

/-- A built generation has maps. -/
theorem Generation.IsBuilt.maps_ne_nil {g : Generation} (hg : g.IsBuilt) : g.maps ≠ [] := by
  rw [hg.maps_eq]
  exact List.cons_ne_nil _ _

/-- **Without all templates nothing is rendered** of a built generation. -/
theorem Renderer.render_of_unready {r : Renderer τ} {g : Generation} (hg : g.IsBuilt)
    (h : r.Unready) : ∃ name ∈ [proxyName, mapName], r.render g = .error (.unknownTemplate name) := by
  cases hmain : r.main with
  | nil => exact ⟨proxyName, by decide, by rw [render, hmain]; rfl⟩
  | cons t ts =>
    refine ⟨mapName, by decide, ?_⟩
    have hmaps : r.maps = [] := h.resolve_left (by rw [hmain]; exact List.cons_ne_nil _ _)
    obtain ⟨m, ms, hg⟩ := List.exists_cons_of_ne_nil hg.maps_ne_nil
    have hfirst : r.renderMap m = .error (.unknownTemplate mapName) := by
      rw [renderMap, hmaps]
      rfl
    rw [render, hmain, hg, List.mapM_cons, hfirst]
    rfl

/-- **What three templates make of a generation**: the files of its maps, that of the request filter and
the main file. -/
def Layout.Fills (l : Layout) (filter proxy map : τ) (g : Generation) (files : List Artifact) : Prop :=
  let main := [(Renderer.filterName, filter), (Renderer.proxyName, proxy)]
  ∃ maps filterText proxyText,
    List.Forall₂ (fun (m : MapFile) (a : Artifact) => ∃ text,
      TemplateEngine.evaluate [(Renderer.mapName, map)] map m.templateValue = .ok text ∧
        ⟨mapPath l.mapsDir m.name, text, 0⟩ = a) g.maps maps ∧
    TemplateEngine.evaluate main filter (g.context l).toValue = .ok filterText ∧
    TemplateEngine.evaluate main proxy (g.context l).toValue = .ok proxyText ∧
    maps ++ [⟨l.filterFile, filterText, 0⟩, ⟨l.configFile, proxyText, l.maxOldFiles⟩] = files

/-- Filling the template of a name fills that template. -/
theorem TemplateSet.render_eq_ok_iff {s : TemplateSet τ} {name text : String} {data : Value}
    {t : Registered τ} (h : s.find name = some t) :
    s.render name data = .ok text ↔ TemplateEngine.evaluate s.named t.template data = .ok text := by
  rw [render, h]
  exact mapError_eq_ok_iff

/-- **Three registered templates are what the files are made from.** -/
theorem Renderer.render_ofTemplates_iff {l : Layout} {filter proxy map : τ} {g : Generation}
    {files : List Artifact} :
    (ofTemplates l filter proxy map).render g = .ok files ↔ l.Fills filter proxy map g files := by
  have hmap (m : MapFile) (a : Artifact) : (ofTemplates l filter proxy map).renderMap m = .ok a ↔
      ∃ text, TemplateEngine.evaluate [(mapName, map)] map m.templateValue = .ok text ∧
        ⟨mapPath l.mapsDir m.name, text, 0⟩ = a := by
    rw [renderMap, bind_eq_ok_iff]
    exact exists_congr fun text =>
      and_congr (TemplateSet.render_eq_ok_iff (t := ⟨mapInfo, map⟩) rfl) pure_eq_ok_iff
  let main := [(filterName, filter), (proxyName, proxy)]
  have hfilter (as : List Artifact) : (ofTemplates l filter proxy map).renderMain (g.context l).toValue
      ⟨filterInfo l, filter⟩ = .ok as ↔
      ∃ text, TemplateEngine.evaluate main filter (g.context l).toValue = .ok text ∧
        [⟨l.filterFile, text, 0⟩] = as :=
    bind_eq_ok_iff.trans <| exists_congr fun text =>
      and_congr (TemplateSet.render_eq_ok_iff (t := ⟨filterInfo l, filter⟩) rfl) pure_eq_ok_iff
  have hproxy (as : List Artifact) : (ofTemplates l filter proxy map).renderMain (g.context l).toValue
      ⟨proxyInfo l, proxy⟩ = .ok as ↔
      ∃ text, TemplateEngine.evaluate main proxy (g.context l).toValue = .ok text ∧
        [⟨l.configFile, text, l.maxOldFiles⟩] = as :=
    bind_eq_ok_iff.trans <| exists_congr fun text =>
      and_congr (TemplateSet.render_eq_ok_iff (t := ⟨proxyInfo l, proxy⟩) rfl) pure_eq_ok_iff
  rw [render_eq_ok_iff]
  constructor
  · rintro ⟨-, maps, others, hmaps, hothers, rfl⟩
    obtain ⟨as, rest, hfirst, hrest, rfl⟩ := List.forall₂_cons_left_iff.mp hothers
    obtain ⟨bs, rest', hsecond, hnil, rfl⟩ := List.forall₂_cons_left_iff.mp hrest
    obtain rfl := List.forall₂_nil_left_iff.mp hnil
    obtain ⟨filterText, hevaluate, rfl⟩ := (hfilter as).mp hfirst
    obtain ⟨proxyText, hevaluate', rfl⟩ := (hproxy bs).mp hsecond
    exact ⟨maps, filterText, proxyText, hmaps.imp fun m a => (hmap m a).mp, hevaluate, hevaluate', rfl⟩
  · rintro ⟨maps, filterText, proxyText, hmaps, hevaluate, hevaluate', rfl⟩
    exact ⟨List.cons_ne_nil _ _, maps, _, hmaps.imp fun m a => (hmap m a).mpr,
      .cons ((hfilter _).mpr ⟨_, hevaluate, rfl⟩) (.cons ((hproxy _).mpr ⟨_, hevaluate', rfl⟩) .nil), rfl⟩

/-! ## Any number of attempts -/

/-- **Register the templates of a layout again and again**, each time in another world, with what each
attempt came to. -/
def Renderer.parseAll (r : Renderer τ) : List σ → List (Except RenderError Unit) × Renderer τ
  | [] => ([], r)
  | w :: ws =>
    let attempt := ((r.parse : StateM σ _) w).1
    let later := parseAll attempt.2 ws
    (attempt.1 :: later.1, later.2)

/-- The last attempt comes after all the others. -/
theorem Renderer.parseAll_concat (w : σ) : ∀ (ws : List σ) (r : Renderer τ),
    r.parseAll (ws ++ [w]) = ((r.parseAll ws).1 ++ [(((r.parseAll ws).2.parse : StateM σ _) w).1.1],
      (((r.parseAll ws).2.parse : StateM σ _) w).1.2)
  | [], r => rfl
  | v :: ws, r => by
      simp only [List.cons_append, parseAll, parseAll_concat w ws]

/-- **No attempt changes the layout.** -/
theorem Renderer.layout_parseAll : ∀ (ws : List σ) (r : Renderer τ), (r.parseAll ws).2.layout = r.layout
  | [], r => rfl
  | w :: ws, r => by
      have hstep : ((r.parse : StateM σ _) w).1.2.layout = r.layout := by
        rcases r.parse_cases w with ⟨_, _, _, -, hparse⟩ | ⟨_, _, hparse, hlayout, -⟩
        · rw [hparse]
          rfl
        · rw [hparse]
          exact hlayout
      exact (layout_parseAll ws _).trans hstep

/-- **All templates or none.**  The templates of a layout are registered any number of times, while their
files come, go and change.  If the last attempt failed, or there was none, neither writing a built
generation nor comparing it with what is there finds its templates, and nothing is changed.  If the last
attempt succeeded, the files are made from what the three sources spelled at that time. -/
theorem no_partial_templates {l : Layout} {g : Generation} {ws : List σ} {r : Renderer τ}
    {results : List (Except RenderError Unit)} (hg : g.IsBuilt)
    (hrun : Renderer.parseAll { layout := l } ws = (results, r)) :
    (results.getLast? ≠ some (.ok ()) → ∃ name ∈ [Renderer.proxyName, Renderer.mapName], ∀ w : σ,
      (r.write g : StateM σ _) w = (.error (.unknownTemplate name), w) ∧
      (r.compare g : StateM σ _) w = (.error (.unknownTemplate name), w)) ∧
    (results.getLast? = some (.ok ()) → ∃ (w : σ) (filter proxy map : τ), ws.getLast? = some w ∧
      l.Spells (HasFileTree.tree w) filter proxy map ∧
      ∀ files, r.render g = .ok files ↔ l.Fills filter proxy map g files) := by
  have hfails (hunready : r.Unready) : ∃ name ∈ [Renderer.proxyName, Renderer.mapName], ∀ w : σ,
      (r.write g : StateM σ _) w = (.error (.unknownTemplate name), w) ∧
      (r.compare g : StateM σ _) w = (.error (.unknownTemplate name), w) := by
    obtain ⟨name, hname, hrender⟩ := Renderer.render_of_unready hg hunready
    refine ⟨name, hname, fun w => ⟨?_, ?_⟩⟩
    · rw [Renderer.write, hrender]
      rfl
    · rw [Renderer.compare, hrender]
      rfl
  rcases List.eq_nil_or_concat ws with rfl | ⟨before, w, rfl⟩
  · obtain ⟨rfl, rfl⟩ := Prod.mk.inj hrun
    exact ⟨fun _ => hfails (.inl rfl), nofun⟩
  rw [List.concat_eq_append, Renderer.parseAll_concat] at hrun
  have hlayout := Renderer.layout_parseAll before ({ layout := l } : Renderer τ)
  rcases (Renderer.parseAll ({ layout := l } : Renderer τ) before).2.parse_cases w with
    ⟨filter, proxy, map, hspells, hparse⟩ | ⟨e, r', hparse, -, hunready⟩
  · rw [hparse, hlayout] at hrun
    obtain ⟨rfl, rfl⟩ := Prod.mk.inj hrun
    rw [hlayout] at hspells
    exact ⟨fun hfailed => absurd List.getLast?_concat hfailed, fun _ =>
      ⟨w, filter, proxy, map, by rw [List.concat_eq_append, List.getLast?_concat], hspells,
        fun _ => Renderer.render_ofTemplates_iff⟩⟩
  · rw [hparse] at hrun
    obtain ⟨rfl, rfl⟩ := Prod.mk.inj hrun
    refine ⟨fun _ => hfails hunready, fun hok => ?_⟩
    rw [List.getLast?_concat] at hok
    exact nomatch Option.some.inj hok

/-- The template of the maps is read from a file that comes and goes. -/
theorem no_partial_templates_vanished :
    let l : Layout := { configFile := "haproxy.cfg", configDir := ".", mapsDir := "maps",
                        mapTemplate := .file "map.tera" }
    let there : FileTree := { entries := [(["map.tera"], .file "{{ name }}\n".toUTF8 false)] }
    let afterLoss := Renderer.parseAll ({ layout := l } : Renderer) [there, {}]
    let afterReturn := Renderer.parseAll ({ layout := l } : Renderer) [{}, there]
    market.IsBuilt ∧ afterLoss.1 = [.ok (), .error (.io "map.tera" .noEntry)] ∧
      afterReturn.1 = [.error (.io "map.tera" .noEntry), .ok ()] ∧
      (∃ name, ∀ w : FileTree,
        (afterLoss.2.write market : StateM FileTree _) w = (.error (.unknownTemplate name), w)) ∧
      ∃ filter proxy map : Template, l.Spells there filter proxy map ∧
        ∀ files, afterReturn.2.render market = .ok files ↔ l.Fills filter proxy map market files := by
  intro l there afterLoss afterReturn
  have hloss : afterLoss.1 = [.ok (), .error (.io "map.tera" .noEntry)] := by decide +kernel
  have hreturn : afterReturn.1 = [.error (.io "map.tera" .noEntry), .ok ()] := by decide +kernel
  obtain ⟨name, -, hfails⟩ :=
    (no_partial_templates (r := afterLoss.2) isBuilt_market rfl).1 (by rw [hloss]; decide)
  obtain ⟨w, filter, proxy, map, hw, hspells, hfiles⟩ :=
    (no_partial_templates (r := afterReturn.2) isBuilt_market rfl).2 (by rw [hreturn]; rfl)
  obtain rfl : there = w := Option.some.inj hw
  exact ⟨isBuilt_market, hloss, hreturn, ⟨name, fun w => (hfails w).1⟩, filter, proxy, map, hspells,
    hfiles⟩

end Rollout
