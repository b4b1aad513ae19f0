import Rollout.Proofs.Template.Fill
import Rollout.Render.Renderer

/-!
# Proofs/Render/Written — the main file, section by section

The built-in template of the main file can always be filled in (`evaluate_proxy`), and so the file is
rendered wherever that template is registered (`render_proxy`).  What comes out is a comment and a
list of sections: two for the process, one for every backend, and those that are not of a backend —
the filter's agents, the stream that is handed on, and the two frontends.
-/

namespace Rollout

/-- What a section is about. -/
inductive SectionKind where
  | global
  | defaults
  | backend
  | listen
  | frontend
  deriving DecidableEq, Repr

/-- The word that opens a section. -/
def SectionKind.word : SectionKind → String
  | .global => "global"
  | .defaults => "defaults"
  | .backend => "backend"
  | .listen => "listen"
  | .frontend => "frontend"

/-- **A section of the main file**: the line that opens it, and the lines below it. -/
structure ProxySection where
  kind : SectionKind
  name : Option String := none
  body : List String
  deriving DecidableEq, Repr

/-- Indented lines, each with the end of a line before it. -/
def indent (ls : List String) : String := String.join (ls.map ("\n    " ++ ·))

@[simp] theorem indent_nil : indent [] = "" := rfl

@[simp] theorem indent_cons (l : String) (ls : List String) :
    indent (l :: ls) = "\n    " ++ (l ++ indent ls) := by
  rw [indent, List.map_cons, String.join_cons, String.append_assoc, indent]

@[simp] theorem indent_append (ls ms : List String) : indent (ls ++ ms) = indent ls ++ indent ms := by
  rw [indent, List.map_append, String.join_append, indent, indent]

/-- The lines about the items of a list. -/
@[simp] theorem indent_map {α : Type} (f : α → String) (as : List α) :
    indent (as.map f) = String.join (as.map fun a => "\n    " ++ f a) := by
  rw [indent, List.map_map]
  rfl

namespace ProxySection

/-- The line that opens a section. -/
def opening (p : ProxySection) : String :=
  match p.name with
  | some name => p.kind.word ++ " " ++ name
  | none => p.kind.word

/-- The text of a section, with the end of a line before it. -/
def text (p : ProxySection) : String :=
  "\n" ++ (p.opening ++ (indent p.body ++ "\n"))

end ProxySection

/-! ## What is written -/

/-- The line of a server. -/
def Server.line (s : Server) : String :=
  "server " ++ s.name ++ " " ++ s.target ++ " weight " ++ Text.decimal s.weight.toNat
    ++ (if s.enabled then "" else " disabled")

/-- The lines of a backend that are not about its servers. -/
def BackendContext.settings (b : BackendContext) : List String :=
  ["mode " ++ b.mode.word, "balance " ++ b.balance]
    ++ (shown b.pathsMap).map fun m =>
      "http-request set-var(txn.pathID) base,lower,map_beg(" ++ m ++ ",_nomatch)"

/-- **The section of a backend.** -/
def BackendContext.written (b : BackendContext) : ProxySection where
  kind := .backend
  name := some b.id
  body := b.settings ++ b.servers.map Server.line

/-- The section of the filter's agents. -/
def agentsWritten (agents : List String) : ProxySection where
  kind := .backend
  name := some "spoe-modsecurity"
  body := ["mode tcp", "timeout connect 5s", "timeout server 5s"]
    ++ agents.zipIdx.map fun p => "server modsec-spoa" ++ Text.decimal p.2 ++ " " ++ p.1

/-- The line at the top of a rendered file. -/
def rendered : String := "# Generated by haconf " ++ version ++ ". Manual edits are overwritten."

namespace RenderContext

/-- The section of the process. -/
def globalWritten (c : RenderContext) : ProxySection where
  kind := .global
  body := ["daemon", "maxconn " ++ Text.decimal c.globals.maxConn.toNat]
    ++ (shown c.statsSocket).map fun s => "stats socket " ++ s ++ " level admin expose-fd listeners"

/-- The settings that every section starts from. -/
def defaultsWritten (c : RenderContext) : ProxySection where
  kind := .defaults
  body := [
    "log global",
    "maxconn " ++ Text.decimal c.globals.maxConn.toNat,
    "option redispatch",
    "timeout connect " ++ c.globals.timeoutConnect,
    "timeout client " ++ c.globals.timeoutClient,
    "timeout server " ++ c.globals.timeoutServer]

/-- The section that hands on TLS streams, by a map of server names. -/
def passthroughWritten (c : RenderContext) (map : String) : ProxySection where
  kind := .listen
  name := some "_front__tls"
  body := [
    "mode tcp",
    "bind " ++ c.globals.bindHttps,
    "tcp-request inspect-delay 5s",
    "tcp-request content accept if \x7b req.ssl_hello_type 1 \x7d",
    "use_backend %[req.ssl_sni,lower,map(" ++ map ++ ")]",
    "server _https_termination " ++ terminationSocket ++ " send-proxy-v2"]

/-- The lines of a frontend that pick a backend. -/
def routing (c : RenderContext) (f : FrontendContext) : List String :=
  (shown f.mapFile).map (fun m => "use_backend %[base,lower,map_beg(" ++ m ++ ")]")
    ++ (shown c.defaultBackend).map ("default_backend " ++ ·)

/-- The frontend for plain requests. -/
def httpWritten (c : RenderContext) : ProxySection where
  kind := .frontend
  name := some c.http.name
  body := ["mode http", "bind " ++ c.http.bind]
    ++ (shown c.redirectMap).map (fun m =>
      "http-request redirect scheme https if \x7b hdr(host),lower,regsub(:[0-9]+$,),map(" ++ m
        ++ ") -m found \x7d")
    ++ c.routing c.http

/-- The frontend that terminates TLS. -/
def httpsWritten (c : RenderContext) : ProxySection where
  kind := .frontend
  name := some c.https.name
  body := ["mode http", "bind " ++ c.https.bind ++ " ssl"
      ++ String.join (c.certificates.map (" crt " ++ ·))]
    ++ (if c.globals.modsecurityEndpoints.isEmpty then [] else [
      "filter spoe engine modsecurity config " ++ c.filterFile,
      "http-request deny if \x7b var(txn.modsec.code) -m int gt 0 \x7d"])
    ++ c.routing c.https

/-- The sections behind those of the backends. -/
def ownSections (c : RenderContext) : List ProxySection :=
  (if c.globals.modsecurityEndpoints.isEmpty then [] else
    [agentsWritten c.globals.modsecurityEndpoints])
  ++ (shown c.passthroughMap).map c.passthroughWritten
  ++ [c.httpWritten]
  ++ (if c.certificates.isEmpty then [] else [c.httpsWritten])

/-- **The sections of the main file**, in order. -/
def sections (c : RenderContext) : List ProxySection :=
  [c.globalWritten, c.defaultsWritten] ++ c.backends.map BackendContext.written ++ c.ownSections

/-- **The main file.** -/
def text (c : RenderContext) : String :=
  rendered ++ String.join (c.sections.map ProxySection.text)

/-- The variables that the main file is filled in from. -/
def scope (c : RenderContext) : Scope :=
  match c.toValue with
  | .record fields => fields
  | _ => []

end RenderContext

/-! ## Filling in

The fixed texts of a template run across the ends of lines, so each equation of texts below ends in
`rfl`, which sees through where a text is cut. -/

section Items

variable (v : Value) (scope : Scope)

theorem fills_serverLine (s : Server) :
    Fills (("loop", v) :: ("server", s.contextValue) :: scope) Builtin.serverLine
      ("\n    " ++ s.line) := by
  have hdisabled : (Part.choice (.negation (Builtin.field "server" ["enabled"]))
      [.text " disabled"] []).evaluate (("loop", v) :: ("server", s.contextValue) :: scope)
        = .ok (if s.enabled then "" else " disabled") := by
    have henabled : (Builtin.field "server" ["enabled"]).eval
        (("loop", v) :: ("server", s.contextValue) :: scope) = some (.bool s.enabled) := rfl
    rw [Part.evaluate, Expr.holds, Expr.eval, henabled]
    cases s.enabled <;> rfl
  have hfills : Fills (("loop", v) :: ("server", s.contextValue) :: scope) Builtin.serverLine _ :=
    .text <| .of rfl <| .text <| .of rfl <| .text <| .of rfl <| .text <| .of rfl <|
    .cons hdisabled .nil
  refine hfills.congr ?_
  unfold Server.line Server.target
  simp only [Value.fill_text, Value.fill_nat, String.append_assoc, String.append_empty]
  rfl

/-- **The section of a backend is filled in.** -/
theorem fills_backendSection (b : BackendContext) :
    Fills (("loop", v) :: ("backend", b.toValue) :: scope) Builtin.backendSection
      b.written.text := by
  have hfills : Fills (("loop", v) :: ("backend", b.toValue) :: scope) Builtin.backendSection _ :=
    .text <| .of rfl <| .text <| .of rfl <| .text <| .of rfl <|
    .whenShown rfl (fun _ hs => .text <| .of hs <| .text .nil) <|
    .forEach rfl (fun s v => fills_serverLine v _ s) <| .text .nil
  refine hfills.congr ?_
  unfold ProxySection.text ProxySection.opening BackendContext.written BackendContext.settings
  simp only [indent_append, indent_cons, indent_nil, indent_map, Value.fill_text, String.append_assoc,
    String.append_empty]
  rfl

end Items

namespace RenderContext

variable (c : RenderContext)

set_option maxRecDepth 2000 in
theorem fills_processSections : Fills c.scope Builtin.processSections
    (rendered ++ (c.globalWritten.text ++ c.defaultsWritten.text)) := by
  have hfills : Fills c.scope Builtin.processSections _ :=
    .text <| .of rfl <| .text <| .of rfl <|
    .whenShown rfl (fun _ hs => .text <| .of hs <| .text .nil) <|
    .text <| .of rfl <| .text <| .of rfl <| .text <| .of rfl <| .text <| .of rfl <| .text .nil
  refine hfills.congr ?_
  unfold rendered ProxySection.text ProxySection.opening globalWritten defaultsWritten
  simp only [indent_append, indent_cons, indent_nil, indent_map, Value.fill_text, Value.fill_nat,
    String.append_assoc, String.append_empty]
  rfl

theorem fills_agentSection : Fills c.scope Builtin.agentSection
    (agentsWritten c.globals.modsecurityEndpoints).text := by
  have hfills : Fills c.scope Builtin.agentSection _ :=
    .text <| .numbered (f := Value.text) rfl
      (fun _ _ => .text <| .of rfl <| .text <| .of rfl .nil) <| .text .nil
  refine hfills.congr ?_
  unfold agentsWritten ProxySection.text ProxySection.opening
  simp only [indent_append, indent_cons, indent_nil, indent_map, Value.fill_text, Value.fill_nat,
    String.append_assoc, String.append_empty]
  rfl

theorem fills_passthroughSection {map : String}
    (hmap : (Expr.path "frontends" ["passthrough_map"]).eval c.scope = some (.text map)) :
    Fills c.scope Builtin.passthroughSection (c.passthroughWritten map).text := by
  have hfills : Fills c.scope Builtin.passthroughSection _ :=
    .text <| .of rfl <| .text <| .of hmap <| .text <| .of rfl <| .text .nil
  refine hfills.congr ?_
  unfold passthroughWritten ProxySection.text ProxySection.opening
  simp only [indent_cons, indent_nil, Value.fill_text, String.append_assoc, String.append_empty]
  rfl

theorem fills_httpSection : Fills c.scope Builtin.httpSection c.httpWritten.text := by
  have hfills : Fills c.scope Builtin.httpSection _ :=
    .text <| .of rfl <| .text <| .of rfl <|
    .whenShown rfl (fun _ hs => .text <| .of hs <| .text .nil) <|
    .whenShown rfl (fun _ hs => .text <| .of hs <| .text .nil) <|
    .whenShown rfl (fun _ hs => .text <| .of hs .nil) <| .text .nil
  refine hfills.congr ?_
  unfold httpWritten routing ProxySection.text ProxySection.opening
  simp only [indent_append, indent_cons, indent_nil, indent_map, Value.fill_text,
    String.append_assoc, String.append_empty]
  rfl

set_option maxRecDepth 2000 in
theorem fills_httpsSection : Fills c.scope Builtin.httpsSection c.httpsWritten.text := by
  have hfills : Fills c.scope Builtin.httpsSection _ :=
    .text <| .of rfl <| .text <| .of rfl <| .text <|
    .forEach (f := Value.text) rfl (fun _ _ => .text <| .of rfl .nil) <|
    .whenAny rfl (.text <| .of rfl <| .text .nil) <|
    .whenShown rfl (fun _ hs => .text <| .of hs <| .text .nil) <|
    .whenShown rfl (fun _ hs => .text <| .of hs .nil) <| .text .nil
  refine hfills.congr ?_
  unfold httpsWritten routing ProxySection.text ProxySection.opening
  cases c.globals.modsecurityEndpoints.isEmpty <;>
  · simp only [indent_append, indent_cons, indent_nil, indent_map, Value.fill_text,
      String.append_assoc, String.append_empty]
    rfl

/-- **The main file can be filled in**, for every context. -/
theorem evaluate_proxy : Builtin.proxy.evaluate c.toValue = .ok c.text := by
  have hfills : Fills c.scope Builtin.proxy _ :=
    .append (.append (.append (.whenAny rfl c.fills_httpsSection .nil) c.fills_httpSection)
      (.forEach rfl (fun b v => fills_backendSection v _ b) <|
      .whenAny rfl c.fills_agentSection <|
      .whenShown rfl (fun _ hs => c.fills_passthroughSection hs) .nil)) c.fills_processSections
  refine hfills.congr ?_
  rw [text, sections, ownSections]
  cases c.globals.modsecurityEndpoints.isEmpty <;> cases c.certificates.isEmpty <;>
    simp [String.append_assoc, Function.comp_def]

end RenderContext

/-! ## Rendering -/

/-- **The template of a name is the one that was registered last.** -/
theorem TemplateSet.find_insert {τ : Type} (r : Registered τ) (s : TemplateSet τ) :
    (s.insert r).find r.info.name = some r := by
  induction s with
  | nil => simp [insert, find]
  | cons q s ih =>
    rw [insert]
    by_cases h : (q.info.name == r.info.name) = true
    · rw [if_pos h]
      simp [find]
    · rw [if_neg h]
      simpa [find, h] using ih

/-- **The built-in template renders the main file**, whatever else is registered. -/
theorem RenderContext.render_proxy (c : RenderContext) (l : Layout) (s : TemplateSet) :
    (s.insert ⟨Renderer.proxyInfo l, Builtin.proxy⟩).render Renderer.proxyName c.toValue
      = .ok c.text := by
  have hfind : (s.insert ⟨Renderer.proxyInfo l, Builtin.proxy⟩).find Renderer.proxyName
      = some ⟨Renderer.proxyInfo l, Builtin.proxy⟩ := TemplateSet.find_insert _ s
  rw [TemplateSet.render, hfind]
  exact congrArg (Except.mapError (RenderError.evaluation Renderer.proxyName)) c.evaluate_proxy

end Rollout
