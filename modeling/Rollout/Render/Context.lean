import Rollout.Generation.Record
import Rollout.Render.Layout
import Rollout.Value

/-!
# Render/Context — what the templates see of a generation

A `RenderContext` names the maps and files of a layout next to the settings, frontends and
backends of a generation.  A map without entries is not mentioned.
-/

namespace Rollout

/-- The version that rendered files mention. -/
def version : String := "0.1.0"

/-- Where the proxy hands a TLS stream to itself after looking at its server name. -/
def terminationSocket : String := "unix@/var/run/haproxy/_https_socket.sock"

/-- A frontend as the templates see it. -/
structure FrontendContext where
  name : String
  bind : String
  mapFile : Option String
  deriving DecidableEq, Repr

/-- A backend as the templates see it. -/
structure BackendContext where
  id : String
  mode : Mode
  balance : String
  pathsMap : Option String
  servers : List Server
  deriving DecidableEq, Repr

/-- **What the templates of the main files see.** -/
structure RenderContext where
  globals : Globals
  http : FrontendContext
  https : FrontendContext
  passthroughMap : Option String
  redirectMap : Option String
  backends : List BackendContext
  defaultBackend : Option String
  /-- The certificates of the hosts that are terminated here, each once and in order. -/
  certificates : List String
  filterFile : String
  statsSocket : Option String
  deriving DecidableEq, Repr

/-- The file of a map, unless the map is empty. -/
def MapFile.reference (mapsDir : String) (m : MapFile) : Option String :=
  if m.entries.isEmpty then none else some (mapPath mapsDir m.name)

/-- A frontend, or one that routes nothing before the frontends are built. -/
def frontendContext (mapsDir name bind : String) : Option Frontend → FrontendContext
  | some f => ⟨f.name, f.bind, f.hostMap.reference mapsDir⟩
  | none => ⟨name, bind, none⟩

namespace DesiredState

/-- The certificates of the hosts that are terminated here, each once and in order. -/
def certificates (d : DesiredState) : List String :=
  (((d.hosts.filter (!·.passthrough)).filterMap (·.certificate)).mergeSort
    fun a b => a ≤ b).eraseReps

end DesiredState

namespace Generation

/-- A backend; only one that reads requests consults the map of its routes. -/
def backendContext (g : Generation) (mapsDir : String) (b : Backend) : BackendContext where
  id := b.id
  mode := b.mode
  balance := b.balance
  pathsMap :=
    match b.mode with
    | .http => (g.pathsOf? b.id).bind (·.reference mapsDir)
    | .tcp => none
  servers := b.servers

/-- **What the templates see of a generation in a layout.** -/
def context (g : Generation) (l : Layout) : RenderContext :=
  let globals := g.state.globals
  let frontend (name bind : String) (f : FrontendGroup → Frontend) : FrontendContext :=
    frontendContext l.mapsDir name bind (g.frontends.map f)
  let passthroughMap := g.frontends.bind fun f => f.passthrough.reference l.mapsDir
  let httpsBind :=
    if passthroughMap.isSome then terminationSocket ++ " accept-proxy" else globals.bindHttps
  { globals
    http := frontend httpFrontendName globals.bindHttp (·.http)
    https :=
      { frontend httpsFrontendName globals.bindHttps (·.https) with bind := httpsBind }
    passthroughMap
    redirectMap := g.frontends.bind fun f => f.redirect.reference l.mapsDir
    backends := g.backends.map (g.backendContext l.mapsDir)
    defaultBackend := g.state.defaultBackend
    certificates := g.state.certificates
    filterFile := l.filterFile
    statsSocket := l.statsSocket }

end Generation

/-! ## Contexts as values -/

/-- An optional text as a value. -/
def optionalText (s : Option String) : Value := Value.ofOption (s.map .text)

/-- A frontend as a value. -/
def FrontendContext.toValue (f : FrontendContext) : Value :=
  .record [("name", .text f.name), ("bind", .text f.bind), ("map_file", optionalText f.mapFile)]

/-- A server as the templates see it. -/
def Server.contextValue (s : Server) : Value :=
  .record [
    ("name", .text s.name),
    ("address", .text s.ip),
    ("port", .nat s.port.toNat),
    ("weight", .nat s.weight.toNat),
    ("enabled", .bool s.enabled)]

/-- A backend as a value. -/
def BackendContext.toValue (b : BackendContext) : Value :=
  .record [
    ("id", .text b.id),
    ("mode", .text b.mode.word),
    ("balance", .text b.balance),
    ("paths_map", optionalText b.pathsMap),
    ("servers", .list (b.servers.map Server.contextValue))]

/-- The settings of the process as a value. -/
def Globals.contextValue (g : Globals) : Value :=
  .record [
    ("max_conn", .nat g.maxConn.toNat),
    ("timeout_connect", .text g.timeoutConnect),
    ("timeout_client", .text g.timeoutClient),
    ("timeout_server", .text g.timeoutServer),
    ("bind_http", .text g.bindHttp),
    ("bind_https", .text g.bindHttps)]

/-- **The context as the record that the templates of the main files read.** -/
def RenderContext.toValue (c : RenderContext) : Value :=
  .record [
    ("global", c.globals.contextValue),
    ("frontends", .record [
      ("http", c.http.toValue),
      ("https", c.https.toValue),
      ("passthrough_map", optionalText c.passthroughMap),
      ("redirect_map", optionalText c.redirectMap),
      ("https_socket", .text terminationSocket)]),
    ("backends", .list (c.backends.map BackendContext.toValue)),
    ("default_backend", optionalText c.defaultBackend),
    ("certificates", .texts c.certificates),
    ("modsecurity", .record [
      ("agents", .texts c.globals.modsecurityEndpoints),
      ("config_file", .text c.filterFile)]),
    ("stats_socket", optionalText c.statsSocket),
    ("meta", .record [("version", .text version)])]

/-- A map as its template sees it. -/
def MapFile.templateValue (m : MapFile) : Value :=
  .record [
    ("name", .text m.name),
    ("entries", .list (m.entries.map MapEntry.toValue)),
    ("version", .text version)]

end Rollout
