import Rollout.State.Basic
import Rollout.Value.Source

/-!
# State/Record — desired states as plain data

`DesiredState.toValue` writes every field, in the order of its declaration, except for the two
optional ones when they are absent.  `DesiredState.read` takes a field that is missing from its
default, and ignores fields it does not know.
-/

namespace Rollout

variable {ν : Type}

namespace Globals

/-- The settings as a record. -/
def toValue (g : Globals) : Value :=
  .record [
    ("max_conn", .nat g.maxConn.toNat),
    ("timeout_connect", .text g.timeoutConnect),
    ("timeout_client", .text g.timeoutClient),
    ("timeout_server", .text g.timeoutServer),
    ("ssl_redirect", .bool g.sslRedirect),
    ("bind_http", .text g.bindHttp),
    ("bind_https", .text g.bindHttps),
    ("modsecurity_endpoints", .texts g.modsecurityEndpoints)]

/-- The names of the fields, in order. -/
def fieldNames : List String :=
  ["max_conn", "timeout_connect", "timeout_client", "timeout_server", "ssl_redirect", "bind_http",
    "bind_https", "modsecurity_endpoints"]

/-- Read settings; every field may be missing. -/
def read (s : Source ν) (v : ν) : Reading Globals := do
  let fs ← s.fields fieldNames v
  let d : Globals := {}
  let maxConn ← Source.withDefault fs "max_conn" s.word32 d.maxConn
  let timeoutConnect ← Source.withDefault fs "timeout_connect" s.text d.timeoutConnect
  let timeoutClient ← Source.withDefault fs "timeout_client" s.text d.timeoutClient
  let timeoutServer ← Source.withDefault fs "timeout_server" s.text d.timeoutServer
  let sslRedirect ← Source.withDefault fs "ssl_redirect" s.bool d.sslRedirect
  let bindHttp ← Source.withDefault fs "bind_http" s.text d.bindHttp
  let bindHttps ← Source.withDefault fs "bind_https" s.text d.bindHttps
  let modsecurityEndpoints ← Source.withDefault fs "modsecurity_endpoints" (s.each s.text)
    d.modsecurityEndpoints
  return { maxConn, timeoutConnect, timeoutClient, timeoutServer, sslRedirect, bindHttp,
           bindHttps, modsecurityEndpoints }

end Globals

namespace Server

/-- A server as a record. -/
def toValue (s : Server) : Value :=
  .record [
    ("name", .text s.name),
    ("ip", .text s.ip),
    ("port", .nat s.port.toNat),
    ("weight", .nat s.weight.toNat),
    ("enabled", .bool s.enabled)]

/-- Read a server; address and port must be there. -/
def read (s : Source ν) (v : ν) : Reading Server := do
  let fs ← s.fields ["name", "ip", "port", "weight", "enabled"] v
  let name ← Source.withDefault fs "name" s.text ""
  let ip ← Source.required fs "ip" s.text
  let port ← Source.required fs "port" s.word16
  let weight ← Source.withDefault fs "weight" s.word32 1
  let enabled ← Source.withDefault fs "enabled" s.bool true
  return { name, ip, port, weight, enabled }

end Server

namespace Mode

/-- The mode a word names. -/
def ofWord? (w : String) : Option Mode :=
  if w = "http" then some .http else if w = "tcp" then some .tcp else none

/-- Read a mode. -/
def read (s : Source ν) (v : ν) : Reading Mode := do
  match ofWord? (← s.choice v) with
  | some m => pure m
  | none => failure

end Mode

namespace Backend

/-- A backend as a record. -/
def toValue (b : Backend) : Value :=
  .record [
    ("id", .text b.id),
    ("mode", .text b.mode.word),
    ("balance", .text b.balance),
    ("endpoints", .list (b.servers.map Server.toValue))]

/-- Read a backend; its id must be there. -/
def read (s : Source ν) (v : ν) : Reading Backend := do
  let fs ← s.fields ["id", "mode", "balance", "endpoints"] v
  let id ← Source.required fs "id" s.text
  let mode ← Source.withDefault fs "mode" (Mode.read s) .http
  let balance ← Source.withDefault fs "balance" s.text "roundrobin"
  let servers ← Source.withDefault fs "endpoints" (s.each (Server.read s)) []
  return { id, mode, balance, servers }

end Backend

namespace Route

/-- A route as a record. -/
def toValue (r : Route) : Value := .record [("path", .text r.path), ("backend", .text r.backend)]

/-- Read a route; both fields must be there. -/
def read (s : Source ν) (v : ν) : Reading Route := do
  let fs ← s.fields ["path", "backend"] v
  let path ← Source.required fs "path" s.text
  let backend ← Source.required fs "backend" s.text
  return { path, backend }

end Route

namespace Host

/-- The certificate of a host as a record. -/
def certificateValue (file : String) : Value := .record [("cert_file", .text file)]

/-- Read the certificate of a host. -/
def readCertificate (s : Source ν) (v : ν) : Reading String := do
  let fs ← s.fields ["cert_file"] v
  Source.required fs "cert_file" s.text

/-- A host as a record, without a certificate field if it has none. -/
def toValue (h : Host) : Value :=
  .record (
    [("hostname", .text h.hostname),
      ("paths", .list (h.routes.map Route.toValue))]
    ++ Value.optionalField "tls" (h.certificate.map certificateValue)
    ++ [("ssl_passthrough", .bool h.passthrough)])

/-- Read a host; its name must be there. -/
def read (s : Source ν) (v : ν) : Reading Host := do
  let fs ← s.fields ["hostname", "paths", "tls", "ssl_passthrough"] v
  let hostname ← Source.required fs "hostname" s.text
  let routes ← Source.withDefault fs "paths" (s.each (Route.read s)) []
  let certificate ← s.maybe fs "tls" (readCertificate s)
  let passthrough ← Source.withDefault fs "ssl_passthrough" s.bool false
  return { hostname, routes, certificate, passthrough }

end Host

namespace DesiredState

/-- **A desired state as a record**, without a default backend field if it has none. -/
def toValue (d : DesiredState) : Value :=
  .record (
    [("global", d.globals.toValue),
      ("hosts", .list (d.hosts.map Host.toValue)),
      ("backends", .list (d.backends.map Backend.toValue))]
    ++ Value.optionalField "default_backend" (d.defaultBackend.map .text))

/-- **Read a desired state**; every field may be missing. -/
def read (s : Source ν) (v : ν) : Reading DesiredState := do
  let fs ← s.fields ["global", "hosts", "backends", "default_backend"] v
  let globals ← Source.withDefault fs "global" (Globals.read s) {}
  let hosts ← Source.withDefault fs "hosts" (s.each (Host.read s)) []
  let backends ← Source.withDefault fs "backends" (s.each (Backend.read s)) []
  let defaultBackend ← s.maybe fs "default_backend" s.text
  return { globals, hosts, backends, defaultBackend }

/-- The desired state a value spells. -/
def ofValue? (v : Value) : Option DesiredState := (read Value.source v).result?

end DesiredState

end Rollout
