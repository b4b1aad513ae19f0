import Rollout.CommandLine.Arguments
import Rollout.CommandLine.Failure
import Rollout.Daemon.Client
import Rollout.Daemon.Run
import Rollout.Render.Compare

/-!
# CommandLine/Run — doing what the command line asks for

`check` builds and renders, `diff` compares what a first cycle would write, `apply` runs that
cycle, and `daemon` starts the daemon or talks to it.
-/

namespace Rollout

/-- **How the program ends**: its status and what it prints. -/
structure Exit where
  status : Nat := 0
  output : String := ""
  errors : String := ""
  deriving DecidableEq, Repr, Inhabited

/-- The end of a program that could not do what it was asked for. -/
def Failure.exit (f : Failure) (output : String := "") : Exit :=
  { status := 1, output, errors := f.text }

namespace CommandLine

/-- Give a failed step its context. -/
def withContext {ε α : Type} (context : String) (causes : ε → List String) :
    Except ε α → Except Failure α :=
  Except.mapError fun e => { context, causes := causes e }

/-- A step that may fail: do the next one, or end. -/
def stepThen {m : Type → Type} [Monad m] {α : Type} (step : m (Except Failure α))
    (next : α → m Exit) : m Exit := do
  match ← step with
  | .ok a => next a
  | .error f => pure f.exit

/-- Build both phases of a generation. -/
def build (g : Generation) : Except Failure Generation :=
  match g.buildFrontends with
  | (.error e, _) => .error { context := "error building configuration group", causes := [e.message] }
  | (.ok (), g) =>
    match g.buildBackends with
    | (.error e, _) => .error { context := "error building backend maps", causes := [e.message] }
    | (.ok (), g) => .ok g

/-- The sign before good and bad news. -/
def mark (good : Bool) : String := if good then "✓" else "✗"

/-- What a valid configuration consists of. -/
def validText (hosts backends files : Nat) : String :=
  mark true ++ " configuration is valid (" ++ Text.decimal hosts ++ " hosts, "
    ++ Text.decimal backends ++ " backends, " ++ Text.decimal files ++ " files)\n"

/-- The outcome of a cycle in words. -/
def reportText (started : Nat) (r : Report) : String :=
  mark r.outcome.isSuccess ++ " " ++ r.outcome.message ++ "\n"
    ++ if r.ticks.isEmpty then "" else "  " ++ r.timingsText started ++ "\n"

/-- The outcome of a cycle as JSON. -/
def reportJson (started ended : Nat) (r : Report) : String :=
  Json.pretty (Value.canonical (.record [
    ("outcome", .text r.outcome.label),
    ("message", .text r.outcome.message),
    ("success", .bool r.outcome.isSuccess),
    ("timings", r.timingsValue started),
    ("total_ms", .nat ((ended - started) / 1000))])) ++ "\n"

/-- Changes as they are printed. -/
def changesText : List FileChange → String
  | [] => "No differences.\n"
  | changes => String.join <| changes.map fun c =>
    if c.changes.endsWith "\n" then c.changes else c.changes ++ "\n"

variable {m : Type → Type} [Monad m] [FileSystem m]

/-- The settings with the state file of the command line. -/
def loadSettings (i : Invocation) : m (Except Failure Settings) := do
  let r ← Settings.loadOrDefault i.config
  pure <| withContext "failed to load instance options" SettingsError.causes <|
    r.map fun s => { s with stateFile := i.state.getD s.stateFile }

/-- The generation of the state file. -/
def loadGeneration (s : Settings) : m (Except Failure Generation) := do
  let r ← StateFormat.yaml.load s.stateFile
  pure <| withContext ("failed to load desired state from " ++ s.stateFile) StateError.causes <|
    r.map Generation.ofState

/-- A deployment with its templates. -/
def parseTemplates (s : Settings) : m (Except Failure Deployment) := do
  let (r, d) ← (Deployment.ofSettings s).parseTemplates
  pure <| withContext "failed to parse templates" RenderError.causes <| r.map fun _ => d

/-- **Build and render, and write nothing.** -/
def check (s : Settings) : m Exit :=
  stepThen (parseTemplates s) fun d =>
    stepThen (loadGeneration s) fun g =>
      stepThen (pure (build g)) fun g =>
        stepThen (pure (withContext "failed to render configuration" RenderError.causes
          (d.renderer.render g))) fun artifacts =>
            pure { output := validText g.state.hosts.length g.backends.length artifacts.length }

variable [Journal m]

/-- A built generation as a first cycle leaves it: nothing runs that could be patched. -/
def firstGeneration (s : Settings) (g : Generation) : m Generation := do
  let (_, g) ← patch none s.slotIncrement none g
  pure (s.cycle.arrange g)

/-- **Compare what a first cycle would write with what is there.** -/
def diff (s : Settings) : m Exit :=
  stepThen (parseTemplates s) fun d =>
    stepThen (loadGeneration s) fun g =>
      stepThen (pure (build g)) fun g => do
        let g ← firstGeneration s g
        stepThen (withContext "diff failed" RenderError.causes <$> d.renderer.compare g)
          fun changes => pure { output := changesText changes }

variable [LocalSockets m] [Launcher m] [Clock m]

/-- **Run one cycle.** -/
def apply (json : Bool) (s : Settings) : m Exit :=
  stepThen (loadGeneration s) fun g =>
    stepThen (parseTemplates s) fun d => do
      let started ← Clock.micros
      let (r, _) ← (d.replace g).update
      let ended ← Clock.micros
      let output := if json then reportJson started ended r else reportText started r
      if r.outcome.isSuccess then pure { output }
      else pure (Failure.exit ⟨"update cycle failed: " ++ r.outcome.label, []⟩ output)

/-- The status of a daemon that is not running. -/
def absentStatus (socket : String) : Value :=
  .record [("running", .bool false), ("socket", .text socket)]

/-- A value as it is printed. -/
def printed (v : Value) : String := Json.pretty v.canonical ++ "\n"

/-- **Start the daemon or talk to it.**  Clients are served by `serve` until one asks to stop. -/
def daemon (serve : Daemon → m (Except DaemonError Unit)) (s : Settings) :
    DaemonCommand → m Exit
  | .start => do
    let run : m (Except DaemonError Unit) := do
      match ← Daemon.start s with
      | .ok d => serve d
      | .error e => pure (.error e)
    stepThen (withContext "daemon exited with error" DaemonError.causes <$> run) fun _ => pure {}
  | .stop => do
    match ← Client.stop s.daemonSocket with
    | .error (.notRunning _) => pure { output := "daemon is not running\n" }
    | r =>
      stepThen (pure (withContext "failed to stop daemon" DaemonError.causes r)) fun _ =>
        pure { output := "daemon stop requested\n" }
  | .status => do
    match ← Client.status s.daemonSocket with
    | .error (.notRunning _) => pure { output := printed (absentStatus s.daemonSocket) }
    | r =>
      stepThen (pure (withContext "failed to query daemon status" DaemonError.causes r)) fun v =>
        pure { output := printed v }
  | .sync =>
    stepThen (withContext "daemon sync failed" DaemonError.causes <$> Client.sync s.daemonSocket)
      fun v => pure { output := printed v }

/-- **Do what is asked for.** -/
def execute (serve : Daemon → m (Except DaemonError Unit)) (i : Invocation) : m Exit :=
  stepThen (loadSettings i) fun s =>
    match i.command with
    | .check => check s
    | .apply json => apply json s
    | .diff => diff s
    | .daemon command => daemon serve s command

/-- What is printed about a wrong command line. -/
def usageText (l : Level) (e : UsageError) : String :=
  "error: " ++ e.message ++ "\n\n" ++ l.usage ++ "\n\nFor more information, try '--help'.\n"

/-- **Run the program with its arguments.** -/
def run (serve : Daemon → m (Except DaemonError Unit)) (arguments : List String) : m Exit :=
  match Arguments.read arguments with
  | .run i => execute serve i
  | .help l => pure { output := l.help }
  | .version => pure { output := "haconf " ++ version ++ "\n" }
  | .lost l => pure { status := 2, errors := l.help }
  | .wrong l e => pure { status := 2, errors := usageText l e }

end CommandLine

end Rollout
