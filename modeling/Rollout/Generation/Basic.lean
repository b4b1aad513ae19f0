import Rollout.State.Servers

/-!
# Generation/Basic — a desired state on its way to the proxy

A `Generation` is a desired state together with the artifacts derived from it: the frontend group
and the path maps.  Each artifact is absent until its phase has succeeded.
-/

namespace Rollout

/-- One line of a map file. -/
structure MapEntry where
  key : String
  value : String
  deriving DecidableEq, Repr, Inhabited

/-- A named map from request texts to values. -/
structure MapFile where
  name : String
  entries : List MapEntry := []
  deriving DecidableEq, Repr, Inhabited

/-- A frontend: where it listens, and which backend serves which request. -/
structure Frontend where
  name : String
  bind : String
  hostMap : MapFile
  deriving DecidableEq, Repr, Inhabited

/-- The frontends of a generation with the maps they share. -/
structure FrontendGroup where
  http : Frontend
  https : Frontend
  /-- The backend of each host whose TLS stream is handed on. -/
  passthrough : MapFile
  /-- The hosts whose plain requests are redirected. -/
  redirect : MapFile
  deriving DecidableEq, Repr, Inhabited

/-- **A desired state and the artifacts derived from it.** -/
structure Generation where
  state : DesiredState := {}
  frontends : Option FrontendGroup := none
  /-- One map for each backend that a route points at. -/
  pathMaps : Option (List MapFile) := none
  deriving DecidableEq, Repr, Inhabited

/-- The name of the frontend for plain requests. -/
def httpFrontendName : String := "_front_http"

/-- The name of the frontend that terminates TLS. -/
def httpsFrontendName : String := "_front_https"

/-- The name of the map that numbers the routes of a backend. -/
def pathsMapName (backend : String) : String := backend ++ "_paths"

namespace Backend

/-- An empty backend of the given id. -/
def empty (id : String) : Backend := { id }

end Backend

namespace Generation

/-- **A generation without artifacts, every server named.** -/
def ofState (d : DesiredState) : Generation :=
  { state := { d with backends := d.backends.map Backend.named } }

/-- The backends of the generation. -/
def backends (g : Generation) : List Backend := g.state.backends

/-- The first backend of the given id. -/
def backend? (g : Generation) (id : String) : Option Backend :=
  g.state.backends.find? fun b => b.id == id

/-- Change every backend. -/
def mapBackends (f : Backend → Backend) (g : Generation) : Generation :=
  { g with state := { g.state with backends := g.state.backends.map f } }

/-- Change the first element that satisfies `p`. -/
def modifyFirst {α : Type} (p : α → Bool) (f : α → α) : List α → List α
  | [] => []
  | a :: as => if p a then f a :: as else a :: modifyFirst p f as

/-- Change the first backend of the given id. -/
def modifyBackend (id : String) (f : Backend → Backend) (g : Generation) : Generation :=
  { g with
    state := { g.state with backends := modifyFirst (fun b => b.id == id) f g.state.backends } }

/-- Change the backend of the given id, which is added empty at the end if there is none. -/
def acquireBackend (id : String) (f : Backend → Backend) (g : Generation) : Generation :=
  if (g.backend? id).isSome then g.modifyBackend id f
  else { g with state := { g.state with backends := g.state.backends ++ [f (Backend.empty id)] } }

/-- The first host of the given name. -/
def host? (g : Generation) (hostname : String) : Option Host :=
  g.state.hosts.find? fun h => h.hostname == hostname

/-- Change the host of the given name, which is added empty at the end if there is none. -/
def acquireHost (hostname : String) (f : Host → Host) (g : Generation) : Generation :=
  let hosts :=
    if (g.host? hostname).isSome then
      modifyFirst (fun h => h.hostname == hostname) f g.state.hosts
    else g.state.hosts ++ [f { hostname }]
  { g with state := { g.state with hosts } }

/-- Every map of the generation, those of the frontends first. -/
def maps (g : Generation) : List MapFile :=
  (match g.frontends with
    | some f => [f.http.hostMap, f.https.hostMap, f.passthrough, f.redirect]
    | none => [])
  ++ g.pathMaps.getD []

/-- The map that numbers the routes of a backend, if the maps are there and one is for it. -/
def pathsOf? (g : Generation) (backend : String) : Option MapFile :=
  (g.pathMaps.getD []).find? fun m => m.name == pathsMapName backend

end Generation

end Rollout
