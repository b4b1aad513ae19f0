import Rollout.Text.Decimal

/-!
# State/Basic — what a caller wants the proxy to serve

A `DesiredState` lists virtual hosts with their routes, backends with their servers, and
process-wide settings.  It holds no artifact: those are derived from it.
-/

namespace Rollout

/-- Process-wide settings. -/
structure Globals where
  maxConn : UInt32 := 2000
  timeoutConnect : String := "5s"
  timeoutClient : String := "50s"
  timeoutServer : String := "50s"
  /-- Are plain requests to hosts with a certificate redirected? -/
  sslRedirect : Bool := true
  bindHttp : String := ":80"
  bindHttps : String := ":443"
  /-- Addresses of the request filter's agents; none switches the filter off. -/
  modsecurityEndpoints : List String := []
  deriving DecidableEq, Repr, Inhabited

/-- One server of a backend.  A disabled server is a slot that can be filled while the proxy
runs. -/
structure Server where
  name : String := ""
  ip : String
  port : UInt16
  weight : UInt32 := 1
  enabled : Bool := true
  deriving DecidableEq, Repr, Inhabited

namespace Server

/-- **An empty slot of the given name.** -/
def emptySlot (name : String) : Server :=
  { name, ip := "127.0.0.1", port := 1023, weight := 0, enabled := false }

/-- Where the server listens, as `address:port`. -/
def target (s : Server) : String := s.ip ++ ":" ++ Text.decimal s.port.toNat

/-- Do two servers listen at the same place? -/
def sameTarget (s t : Server) : Bool := s.ip == t.ip && s.port == t.port

/-- Is the server a slot that can be filled? -/
def isSlot (s : Server) : Bool := !s.enabled

end Server

/-- How a backend reads its traffic. -/
inductive Mode where
  | http
  | tcp
  deriving DecidableEq, Repr, Inhabited

/-- The word the proxy uses for a mode. -/
def Mode.word : Mode → String
  | .http => "http"
  | .tcp => "tcp"

/-- A backend and its servers. -/
structure Backend where
  id : String
  mode : Mode := .http
  balance : String := "roundrobin"
  servers : List Server := []
  deriving DecidableEq, Repr, Inhabited

namespace Backend

/-- The servers that take traffic. -/
def enabledServers (b : Backend) : List Server := b.servers.filter (·.enabled)

/-- Do two backends agree in everything but their servers? -/
def sameSettings (b c : Backend) : Bool := b.id == c.id && b.mode == c.mode && b.balance == c.balance

end Backend

/-- A path of a host and the backend that serves it. -/
structure Route where
  path : String
  backend : String
  deriving DecidableEq, Repr, Inhabited

/-- A virtual host. -/
structure Host where
  hostname : String
  routes : List Route := []
  /-- The certificate the proxy terminates TLS with; none if the host is plain. -/
  certificate : Option String := none
  /-- Is the raw TLS stream handed on, chosen by its server name? -/
  passthrough : Bool := false
  deriving DecidableEq, Repr, Inhabited

/-- Everything a caller wants the proxy to serve. -/
structure DesiredState where
  globals : Globals := {}
  hosts : List Host := []
  backends : List Backend := []
  defaultBackend : Option String := none
  deriving DecidableEq, Repr, Inhabited

end Rollout
