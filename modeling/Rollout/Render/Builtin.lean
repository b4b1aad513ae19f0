import Rollout.Template.Basic

/-!
# Render/Builtin — the built-in templates

The three files a generation is rendered into: a map file, the configuration of the request
filter, and the main file of the proxy.
-/

namespace Rollout.Builtin

/-- A path through fields, as a condition or as the source of items. -/
def field (root : String) (fields : List String) : Expr := .path root fields

/-- Parts that stand only where a value counts as true. -/
def whenSet (root : String) (fields : List String) (parts : List Part) : Part :=
  .choice (field root fields) parts []

/-- **A map file**: a comment, then a line for every entry. -/
def map : Template := [
  .text "# ",
  .of "name" [],
  .text ": generated by haconf ",
  .of "version" [],
  .text "\n",
  .repetition "entry" (field "entries" []) [
    .of "entry" ["key"],
    .text " ",
    .of "entry" ["value"],
    .text "\n"]]

/-- **The configuration of the request filter**, empty without agents. -/
def filter : Template := [
  .text "# Generated by haconf ",
  .of "meta" ["version"],
  .text ".",
  whenSet "modsecurity" ["agents"] [
    .text (
      "\n[modsecurity]" ++
      "\nspoe-agent modsecurity-agent" ++
      "\n    messages check-request" ++
      "\n    option var-prefix modsec" ++
      "\n    timeout hello 100ms" ++
      "\n    timeout idle 30s" ++
      "\n    timeout processing 1s" ++
      "\n    use-backend spoe-modsecurity" ++
      "\n" ++
      "\nspoe-message check-request" ++
      "\n    args unique-id method path query req.ver req.hdrs_bin req.body_size req.body" ++
      "\n    event on-frontend-http-request")],
  .text "\n"]

/-- The sections that hold for the whole process. -/
def processSections : Template := [
  .text "# Generated by haconf ",
  .of "meta" ["version"],
  .text ". Manual edits are overwritten.\nglobal\n    daemon\n    maxconn ",
  .of "global" ["max_conn"],
  whenSet "stats_socket" [] [
    .text "\n    stats socket ",
    .of "stats_socket" [],
    .text " level admin expose-fd listeners"],
  .text "\n\ndefaults\n    log global\n    maxconn ",
  .of "global" ["max_conn"],
  .text "\n    option redispatch\n    timeout connect ",
  .of "global" ["timeout_connect"],
  .text "\n    timeout client ",
  .of "global" ["timeout_client"],
  .text "\n    timeout server ",
  .of "global" ["timeout_server"],
  .text "\n"]

/-- The line of a server. -/
def serverLine : Template := [
  .text "\n    server ",
  .of "server" ["name"],
  .text " ",
  .of "server" ["address"],
  .text ":",
  .of "server" ["port"],
  .text " weight ",
  .of "server" ["weight"],
  .choice (.negation (field "server" ["enabled"])) [.text " disabled"] []]

/-- The section of a backend. -/
def backendSection : Template := [
  .text "\nbackend ",
  .of "backend" ["id"],
  .text "\n    mode ",
  .of "backend" ["mode"],
  .text "\n    balance ",
  .of "backend" ["balance"],
  whenSet "backend" ["paths_map"] [
    .text "\n    http-request set-var(txn.pathID) base,lower,map_beg(",
    .of "backend" ["paths_map"],
    .text ",_nomatch)"],
  .repetition "server" (field "backend" ["servers"]) serverLine,
  .text "\n"]

/-- The section of the filter's agents. -/
def agentSection : Template := [
  .text (
    "\nbackend spoe-modsecurity" ++
    "\n    mode tcp" ++
    "\n    timeout connect 5s" ++
    "\n    timeout server 5s"),
  .repetition "agent" (field "modsecurity" ["agents"]) [
    .text "\n    server modsec-spoa",
    .of "loop" ["index0"],
    .text " ",
    .of "agent" []],
  .text "\n"]

/-- The section that hands on TLS streams by their server name. -/
def passthroughSection : Template := [
  .text "\nlisten _front__tls\n    mode tcp\n    bind ",
  .of "global" ["bind_https"],
  .text (
    "\n    tcp-request inspect-delay 5s" ++
    "\n    tcp-request content accept if \x7b req.ssl_hello_type 1 \x7d" ++
    "\n    use_backend %[req.ssl_sni,lower,map("),
  .of "frontends" ["passthrough_map"],
  .text ")]\n    server _https_termination ",
  .of "frontends" ["https_socket"],
  .text " send-proxy-v2\n"]

/-- The line that picks a backend by host and path. -/
def hostMapLine (frontend : String) : Part :=
  whenSet "frontends" [frontend, "map_file"] [
    .text "\n    use_backend %[base,lower,map_beg(",
    .of "frontends" [frontend, "map_file"],
    .text ")]"]

/-- The line of the backend that takes what nothing else takes. -/
def defaultLine : Part :=
  whenSet "default_backend" [] [.text "\n    default_backend ", .of "default_backend" []]

/-- The frontend for plain requests. -/
def httpSection : Template := [
  .text "\nfrontend ",
  .of "frontends" ["http", "name"],
  .text "\n    mode http\n    bind ",
  .of "frontends" ["http", "bind"],
  whenSet "frontends" ["redirect_map"] [
    .text (
      "\n    http-request redirect scheme https if " ++
      "\x7b hdr(host),lower,regsub(:[0-9]+$,),map("),
    .of "frontends" ["redirect_map"],
    .text ") -m found \x7d"],
  hostMapLine "http",
  defaultLine,
  .text "\n"]

/-- The frontend that terminates TLS. -/
def httpsSection : Template := [
  .text "\nfrontend ",
  .of "frontends" ["https", "name"],
  .text "\n    mode http\n    bind ",
  .of "frontends" ["https", "bind"],
  .text " ssl",
  .repetition "cert" (field "certificates" []) [.text " crt ", .of "cert" []],
  whenSet "modsecurity" ["agents"] [
    .text "\n    filter spoe engine modsecurity config ",
    .of "modsecurity" ["config_file"],
    .text "\n    http-request deny if \x7b var(txn.modsec.code) -m int gt 0 \x7d"],
  hostMapLine "https",
  defaultLine,
  .text "\n"]

/-- **The main file of the proxy.** -/
def proxy : Template :=
  processSections
  ++ [.repetition "backend" (field "backends" []) backendSection,
    whenSet "modsecurity" ["agents"] agentSection,
    whenSet "frontends" ["passthrough_map"] passthroughSection]
  ++ httpSection
  ++ [whenSet "certificates" [] httpsSection]

end Rollout.Builtin
