import Rollout.Generation.Basic
import Rollout.Generation.Error
import Rollout.Text.Blank

/-!
# Generation/Build — deriving the artifacts

Building has two phases, and either may fail on its own.  `DesiredState.frontendGroup` checks the
hosts and groups their routes into the frontends; `DesiredState.backendMaps` checks the backends,
resolves every route and numbers the routes of each backend.  Both go through the hosts by name
and through the routes of a host longest path first, so that the first matching entry of a host is
its longest.  A phase that fails leaves its artifact unset (`Generation.buildFrontends`,
`Generation.buildBackends`).
-/

namespace Rollout

/-! ## Names -/

/-- Why a text cannot be one token. -/
def tokenFault (s : String) : Option NameFault :=
  if s.toList.any Text.isBlank then some .blank
  else if s.toList.any Text.isControl then some .control
  else none

/-- Do two points follow one another? -/
def hasDoubleDot : List Char → Bool
  | '.' :: '.' :: _ => true
  | _ :: cs => hasDoubleDot cs
  | [] => false

/-- **Why a text cannot be a name.**  Names become file names and arguments of commands. -/
def nameFault (s : String) : Option NameFault :=
  if s.isEmpty then some .empty
  else if s.toList.contains '/' then some .slash
  else if hasDoubleDot s.toList then some .doubleDot
  else tokenFault s

/-- Refuse a text that cannot be a name. -/
def checkName (kind : NameKind) (s : String) : Except BuildError Unit :=
  match nameFault s with
  | some fault => .error (.invalidName kind s fault)
  | none => .ok ()

/-- Refuse, of the two, if the condition fails. -/
def ensure {ε : Type} (holds : Bool) (e : ε) : Except ε Unit :=
  if holds then .ok () else .error e

/-! ## Hosts and routes in order -/

/-- The hosts by name. -/
def sortHosts (hosts : List Host) : List Host :=
  hosts.mergeSort fun a b => a.hostname ≤ b.hostname

/-- Does a route stand before another one: the longer path first, equally long ones in text
order? -/
def Route.before (a b : Route) : Bool :=
  if a.path.utf8ByteSize ≠ b.path.utf8ByteSize then b.path.utf8ByteSize < a.path.utf8ByteSize
  else a.path ≤ b.path

namespace Host

/-- The routes of a host, longest path first. -/
def sortedRoutes (h : Host) : List Route := h.routes.mergeSort Route.before

/-- Refuse the first path that was listed before. -/
def checkDistinct (host : String) (seen : List String) : List Route → Except BuildError Unit
  | [] => .ok ()
  | r :: rest => do
    ensure (!seen.contains r.path) (.duplicatePath host r.path)
    checkDistinct host (r.path :: seen) rest

/-- Refuse a path that two routes of the host share. -/
def checkPaths (h : Host) : Except BuildError Unit := checkDistinct h.hostname [] h.routes

/-- The text that a request to a route of the host starts with. -/
def key (h : Host) (r : Route) : String := h.hostname ++ r.path

/-- Is a plain request to the host redirected? -/
def isRedirected (h : Host) (g : Globals) : Bool := h.certificate.isSome && g.sslRedirect

/-- The entries of the host in a map from requests to backends. -/
def entries (h : Host) : List MapEntry := h.sortedRoutes.map fun r => ⟨h.key r, r.backend⟩

/-- **Check one host**, where `seen` holds the names before it. -/
def check (seen : List String) (h : Host) : Except BuildError Unit := do
  ensure (!Text.isBlankText h.hostname) .emptyHostname
  checkName .hostname h.hostname
  ensure (!seen.contains h.hostname) (.duplicateHost h.hostname)
  h.checkPaths
  h.sortedRoutes.forM fun r =>
    match tokenFault r.path with
    | some fault => .error (.invalidName .path (h.key r) fault)
    | none => .ok ()
  ensure (!h.passthrough || h.sortedRoutes.all (·.path == "/"))
    (.passthroughWithPaths h.hostname)

end Host

/-- Check hosts one after the other, where `seen` holds the names before them. -/
def checkHosts (seen : List String) : List Host → Except BuildError Unit
  | [] => .ok ()
  | h :: rest => do
    h.check seen
    checkHosts (h.hostname :: seen) rest

/-! ## The two phases -/

namespace DesiredState

/-- The hosts whose requests the proxy reads, by name. -/
def terminatedHosts (d : DesiredState) : List Host :=
  (sortHosts d.hosts).filter (!·.passthrough)

/-- The entries of the map for plain requests: hosts that are not redirected. -/
def httpEntries (d : DesiredState) : List MapEntry :=
  (d.terminatedHosts.filter (!·.isRedirected d.globals)).flatMap Host.entries

/-- The entries of the map for requests over TLS: hosts with a certificate. -/
def httpsEntries (d : DesiredState) : List MapEntry :=
  (d.terminatedHosts.filter (·.certificate.isSome)).flatMap Host.entries

/-- The entries of the map from server names to backends: hosts whose stream is handed on. -/
def passthroughEntries (d : DesiredState) : List MapEntry :=
  ((sortHosts d.hosts).filter (·.passthrough)).filterMap fun h =>
    h.sortedRoutes.head?.map fun r => ⟨h.hostname, r.backend⟩

/-- The entries of the map of redirected hosts. -/
def redirectEntries (d : DesiredState) : List MapEntry :=
  (d.terminatedHosts.filter (·.isRedirected d.globals)).map fun h => ⟨h.hostname, "https"⟩

/-- **The frontends of a state**, once its hosts are found sound. -/
def frontendGroup (d : DesiredState) : Except BuildError FrontendGroup := do
  checkHosts [] (sortHosts d.hosts)
  return {
    http := {
      name := httpFrontendName
      bind := d.globals.bindHttp
      hostMap := ⟨httpFrontendName ++ "_host", d.httpEntries⟩ }
    https := {
      name := httpsFrontendName
      bind := d.globals.bindHttps
      hostMap := ⟨httpsFrontendName ++ "_host", d.httpsEntries⟩ }
    passthrough := ⟨"_front_sni_passthrough", d.passthroughEntries⟩
    redirect := ⟨"_front_redirect_https", d.redirectEntries⟩ }

end DesiredState

/-- Check the servers of a backend, where `seen` holds the names before them.  A disabled server
needs a name only. -/
def checkServers (backend : String) (seen : List String) : List Server → Except BuildError Unit
  | [] => .ok ()
  | s :: rest => do
    checkName .serverName s.name
    ensure (!seen.contains s.name) (.duplicateServer backend s.name)
    if s.enabled then
      ensure (s.port ≠ 0) (.invalidServer backend s.name .portZero)
      ensure (Address.parse s.ip).isSome (.invalidServer backend s.name (.notAnAddress s.ip))
    checkServers backend (s.name :: seen) rest

/-- Check backends one after the other, where `seen` holds the ids before them. -/
def checkBackends (seen : List String) : List Backend → Except BuildError Unit
  | [] => .ok ()
  | b :: rest => do
    checkName .backendId b.id
    ensure (!seen.contains b.id) (.duplicateBackend b.id)
    checkServers b.id [] b.servers
    checkBackends (b.id :: seen) rest

namespace DesiredState

/-- Is a backend of that id declared? -/
def declares (d : DesiredState) (id : String) : Bool := d.backends.any fun b => b.id == id

/-- Refuse the first route, host by host, that points at no declared backend. -/
def checkRoutes (d : DesiredState) : Except BuildError Unit :=
  (sortHosts d.hosts).forM fun h => do
    h.checkPaths
    h.sortedRoutes.forM fun r =>
      ensure (d.declares r.backend) (.unknownBackend r.backend h.hostname r.path)

/-- Every route as the text its requests start with and the backend it points at, in order. -/
def routeEntries (d : DesiredState) : List MapEntry := (sortHosts d.hosts).flatMap Host.entries

/-- The ids of the backends that routes point at, each once and in order. -/
def routedBackends (d : DesiredState) : List String :=
  (d.routeEntries.map (·.value)).eraseDups.mergeSort fun a b => a ≤ b

/-- The number of a route among those of its backend. -/
def pathId (n : Nat) : String := "path" ++ Text.padded 2 n

/-- The map that numbers the routes of a backend. -/
def pathsMap (d : DesiredState) (backend : String) : MapFile where
  name := pathsMapName backend
  entries :=
    ((d.routeEntries.filter (·.value == backend)).zipIdx 1).map fun (e, n) => ⟨e.key, pathId n⟩

/-- **The path maps of a state**, once its backends and routes are found sound. -/
def backendMaps (d : DesiredState) : Except BuildError (List MapFile) := do
  checkBackends [] d.backends
  match d.defaultBackend with
  | some id => ensure (d.declares id) (.unknownDefaultBackend id)
  | none => pure ()
  d.checkRoutes
  return d.routedBackends.map d.pathsMap

end DesiredState

namespace Generation

/-- **Run the frontend phase.**  The artifact is set or cleared, nothing else changes. -/
def buildFrontends (g : Generation) : Except BuildError Unit × Generation :=
  match g.state.frontendGroup with
  | .ok f => (.ok (), { g with frontends := some f })
  | .error e => (.error e, { g with frontends := none })

/-- **Run the backend phase.**  The artifact is set or cleared, nothing else changes. -/
def buildBackends (g : Generation) : Except BuildError Unit × Generation :=
  match g.state.backendMaps with
  | .ok ms => (.ok (), { g with pathMaps := some ms })
  | .error e => (.error e, { g with pathMaps := none })

end Generation

end Rollout
