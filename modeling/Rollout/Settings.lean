import Rollout.Render.Layout
import Rollout.System.Files
import Rollout.Text.Blank
import Rollout.Yaml.Document

/-!
# Settings — how an instance is set up

`Settings` says where files live, which commands check and reload the proxy, and how cycles are
run.  Every setting has a default, so that an empty file sets up an instance that runs no command
and patches nothing.
-/

namespace Rollout

/-- Files that replace the built-in templates. -/
structure TemplateFiles where
  proxy : Option String := none
  filter : Option String := none
  map : Option String := none
  deriving DecidableEq, Repr, Inhabited

/-- **The settings of an instance.** -/
structure Settings where
  /-- The file of the desired state. -/
  stateFile : String := "haconf-state.yaml"
  configFile : String := "/etc/haproxy/haproxy.cfg"
  configDir : String := "/etc/haproxy"
  mapsDir : String := "/etc/haproxy/maps"
  templates : TemplateFiles := {}
  maxOldFiles : Nat := 0
  /-- The command that checks a written configuration; without it nothing is checked. -/
  checkCommand : Option String := none
  /-- The command that reloads the proxy; without it nothing is reloaded. -/
  reloadCommand : Option String := none
  reloadStrategy : String := "native"
  sortBackends : Bool := false
  validateConfig : Bool := false
  /-- The control socket of the proxy; without it nothing is patched. -/
  controlSocket : Option String := none
  /-- Backends are padded to a multiple of this at every reload. -/
  slotIncrement : Nat := 32
  /-- The directory of the daemon's socket. -/
  runDir : String := "/var/run/haconf"
  resyncSeconds : Option Nat := none
  deriving DecidableEq, Repr, Inhabited

/-- **Why settings cannot be loaded.** -/
inductive SettingsError where
  | notFound (path : String)
  /-- The content of the file is no settings. -/
  | parse (path : String)
  | io (path : String) (fault : SystemFault)
  deriving DecidableEq, Repr

/-- The wording of an error. -/
def SettingsError.message : SettingsError → String
  | .notFound path => "options file not found at " ++ path
  | .parse path => "failed to parse options at " ++ path ++ ": not a set of options"
  | .io path fault => "I/O error at " ++ path ++ ": " ++ fault.message

namespace TemplateFiles

variable {ν : Type}

/-- Read template files; each may be missing. -/
def read (s : Source ν) (v : ν) : Reading TemplateFiles := do
  let fs ← s.fields ["haproxy", "modsecurity", "map"] v
  let proxy ← s.maybe fs "haproxy" s.text
  let filter ← s.maybe fs "modsecurity" s.text
  let map ← s.maybe fs "map" s.text
  return { proxy, filter, map }

/-- Template files as a record. -/
def toValue (t : TemplateFiles) : Value :=
  .record [("haproxy", Value.ofOption (t.proxy.map .text)),
    ("modsecurity", Value.ofOption (t.filter.map .text)),
    ("map", Value.ofOption (t.map.map .text))]

end TemplateFiles

namespace Settings

variable {ν : Type}

/-- The names of the settings. -/
def fieldNames : List String :=
  ["state_file", "config_file", "config_dir", "maps_dir", "templates", "max_old_config_files",
    "haproxy_cmd", "reload_cmd", "reload_strategy", "sort_backends", "validate_config",
    "runtime_socket", "backend_server_slots_increment", "run_dir", "resync_interval_secs"]

/-- **Read settings**; every one may be missing. -/
def read (s : Source ν) (v : ν) : Reading Settings := do
  let fs ← s.fields fieldNames v
  let d : Settings := {}
  let stateFile ← Source.withDefault fs "state_file" s.text d.stateFile
  let configFile ← Source.withDefault fs "config_file" s.text d.configFile
  let configDir ← Source.withDefault fs "config_dir" s.text d.configDir
  let mapsDir ← Source.withDefault fs "maps_dir" s.text d.mapsDir
  let templates ← Source.withDefault fs "templates" (TemplateFiles.read s) {}
  let maxOldFiles ← Source.withDefault fs "max_old_config_files" s.nat d.maxOldFiles
  let checkCommand ← s.maybe fs "haproxy_cmd" s.text
  let reloadCommand ← s.maybe fs "reload_cmd" s.text
  let reloadStrategy ← Source.withDefault fs "reload_strategy" s.text d.reloadStrategy
  let sortBackends ← Source.withDefault fs "sort_backends" s.bool d.sortBackends
  let validateConfig ← Source.withDefault fs "validate_config" s.bool d.validateConfig
  let controlSocket ← s.maybe fs "runtime_socket" s.text
  let slotIncrement ←
    Source.withDefault fs "backend_server_slots_increment" s.nat d.slotIncrement
  let runDir ← Source.withDefault fs "run_dir" s.text d.runDir
  let resyncSeconds ← s.maybe fs "resync_interval_secs" s.nat
  return { stateFile, configFile, configDir, mapsDir, templates, maxOldFiles, checkCommand,
           reloadCommand, reloadStrategy, sortBackends, validateConfig, controlSocket,
           slotIncrement, runDir, resyncSeconds }

/-- **Settings as a record**, every one of them. -/
def toValue (s : Settings) : Value :=
  let maybeText (t : Option String) : Value := Value.ofOption (t.map .text)
  .record [
    ("state_file", .text s.stateFile),
    ("config_file", .text s.configFile),
    ("config_dir", .text s.configDir),
    ("maps_dir", .text s.mapsDir),
    ("templates", s.templates.toValue),
    ("max_old_config_files", .nat s.maxOldFiles),
    ("haproxy_cmd", maybeText s.checkCommand),
    ("reload_cmd", maybeText s.reloadCommand),
    ("reload_strategy", .text s.reloadStrategy),
    ("sort_backends", .bool s.sortBackends),
    ("validate_config", .bool s.validateConfig),
    ("runtime_socket", maybeText s.controlSocket),
    ("backend_server_slots_increment", .nat s.slotIncrement),
    ("run_dir", .text s.runDir),
    ("resync_interval_secs", Value.ofOption (s.resyncSeconds.map .nat))]

/-- The settings a text spells; a text of blanks spells the defaults. -/
def ofText? (text : String) : Option Settings :=
  if Text.isBlankText text then some {} else Yaml.read? text read

/-- Where settings are looked for when no file is named. -/
def defaultFile : String := "haconf.yaml"

variable {m : Type → Type} [Monad m] [FileSystem m]

/-- **Load the settings of a file.** -/
def load (path : String) : m (Except SettingsError Settings) := do
  match ← FileSystem.readText path with
  | .error .noEntry => pure (.error (.notFound path))
  | .error e => pure (.error (.io path e))
  | .ok text =>
    match ofText? text with
    | some s => pure (.ok s)
    | none => pure (.error (.parse path))

/-- **Load the settings of the named file, or those of the default file.**  Only the default file
may be missing. -/
def loadOrDefault : Option String → m (Except SettingsError Settings)
  | some path => load path
  | none => do
    match ← load defaultFile with
    | .error (.notFound _) => pure (.ok {})
    | r => pure r

/-- The template to use: a file if one is named. -/
def templateSource : Option String → TemplateSource
  | some path => .file path
  | none => .embedded

/-- **The layout that the settings describe.** -/
def layout (s : Settings) : Layout where
  configFile := s.configFile
  configDir := s.configDir
  mapsDir := s.mapsDir
  proxyTemplate := templateSource s.templates.proxy
  filterTemplate := templateSource s.templates.filter
  mapTemplate := templateSource s.templates.map
  maxOldFiles := s.maxOldFiles
  statsSocket := s.controlSocket

/-- The socket of the daemon. -/
def daemonSocket (s : Settings) : String := Path.join s.runDir "haconf.sock"

end Settings

end Rollout
