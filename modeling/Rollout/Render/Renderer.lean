import Rollout.Render.Builtin
import Rollout.Render.Context
import Rollout.Render.TemplateSet

/-!
# Render/Renderer — the files of a generation

A `Renderer` holds the templates of the main files and the one of the map files.
`Renderer.render` lists the files of a generation, maps first, so that a file is written after the
files it mentions.
-/

namespace Rollout

/-- **A rendered file that is not written yet.** -/
structure Artifact where
  path : String
  content : String
  maxOldFiles : Nat := 0
  deriving DecidableEq, Repr, Inhabited

/-- A layout and the templates registered for it. -/
structure Renderer (τ : Type := Template) where
  layout : Layout
  /-- The templates of the main files. -/
  main : TemplateSet τ := []
  /-- The template of the map files. -/
  maps : TemplateSet τ := []
  deriving Inhabited

namespace Renderer

/-- The name of the template of the proxy's main file. -/
def proxyName : String := "haproxy.tmpl"

/-- The name of the template of the request filter's file. -/
def filterName : String := "spoe-modsecurity.tmpl"

/-- The name of the template of map files. -/
def mapName : String := "map.tmpl"

/-- What is noted of the template of the request filter's file. -/
def filterInfo (l : Layout) : TemplateInfo :=
  { name := filterName, output := some l.filterFile, sizeHint := 1024 }

/-- What is noted of the template of the proxy's main file. -/
def proxyInfo (l : Layout) : TemplateInfo :=
  { name := proxyName, output := some l.configFile, maxOldFiles := l.maxOldFiles,
    sizeHint := 16384 }

/-- What is noted of the template of map files. -/
def mapInfo : TemplateInfo := { name := mapName, sizeHint := 2048 }

variable {τ : Type} [TemplateEngine τ] {m : Type → Type} [Monad m] [FileSystem m]

/-- **Register the templates of the layout anew.**  At the first that fails the others are left
out. -/
def parse (r : Renderer τ) : m (Except RenderError Unit × Renderer τ) := do
  let l := r.layout
  match ← TemplateSet.add (filterInfo l) (TemplateEngine.ofParts Builtin.filter) l.filterTemplate [] with
  | .error e => pure (.error e, { r with main := [], maps := [] })
  | .ok main =>
    match ← TemplateSet.add (proxyInfo l) (TemplateEngine.ofParts Builtin.proxy) l.proxyTemplate main with
    | .error e => pure (.error e, { r with main, maps := [] })
    | .ok main =>
      match ← TemplateSet.add mapInfo (TemplateEngine.ofParts Builtin.map) l.mapTemplate [] with
      | .error e => pure (.error e, { r with main, maps := [] })
      | .ok maps => pure (.ok (), { r with main, maps })

/-- The file of a map. -/
def renderMap (r : Renderer τ) (file : MapFile) : Except RenderError Artifact := do
  let content ← r.maps.render mapName file.templateValue
  return { path := mapPath r.layout.mapsDir file.name, content }

/-- The file of a template, if it has one. -/
def renderMain (r : Renderer τ) (data : Value) (t : Registered τ) :
    Except RenderError (List Artifact) :=
  match t.info.output with
  | none => .ok []
  | some path => do
    let content ← r.main.render t.info.name data
    return [{ path, content, maxOldFiles := t.info.maxOldFiles }]

/-- **The files of a generation**, maps first. -/
def render (r : Renderer τ) (g : Generation) : Except RenderError (List Artifact) :=
  if r.main.isEmpty then .error (.unknownTemplate proxyName)
  else do
    let maps ← g.maps.mapM r.renderMap
    let data := (g.context r.layout).toValue
    let files ← r.main.mapM (r.renderMain data)
    return maps ++ files.flatten

end Renderer

end Rollout
