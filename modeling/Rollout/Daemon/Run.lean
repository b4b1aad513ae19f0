import Rollout.Daemon.Debounce
import Rollout.Daemon.Session
import Rollout.Deployment

/-!
# Daemon/Run — the daemon

A `Daemon` owns a deployment and runs its cycles one at a time: the first one when it starts, then
one for each taken change of the state file, each resync and each request of a client.  Every cycle
is entered in the history before anybody hears of it.
-/

namespace Rollout

/-- **A running daemon.** -/
structure Daemon where
  deployment : Deployment
  history : History := {}
  debounce : Debounce := []
  /-- When the daemon was started, in seconds since the beginning of 1970. -/
  startedAt : Nat := 0
  deriving Inhabited

/-- The directory to watch for a file; a file without directory lies in the working directory. -/
def watchedDirectory (path : String) : String :=
  match (Path.parent? path).filter fun p => !p.isEmpty with
  | some parent => parent
  | none => "."

namespace Daemon

/-- The settings of the deployment. -/
def settings (d : Daemon) : Settings := d.deployment.settings

variable {m : Type → Type} [Monad m] [FileSystem m]

/-- Make a directory unless something is there. -/
def ensureDirectory (path : String) : m (Except DaemonError Unit) := do
  if ← FileSystem.exists? path then pure (.ok ())
  else Except.mapError (.io path) <$> FileSystem.createDirectories path

/-- Prepare to watch the state file. -/
def prepareWatch (stateFile : String) : m (Except DaemonError Unit) := do
  match ← ensureDirectory (watchedDirectory stateFile) with
  | .error e => pure (.error e)
  | .ok () =>
    pure (if (Path.fileName? stateFile).isSome then .ok () else .error (.nothingToWatch stateFile))

variable [LocalSockets m]

/-- Remove a socket that nobody answers any more. -/
def clearSocket (socket : String) : m (Except DaemonError Unit) := do
  if ← FileSystem.exists? socket then
    if ← LocalSockets.isAnswered socket then pure (.error (.socketInUse socket))
    else
      match ← FileSystem.remove socket with
      | .ok () | .error .noEntry => pure (.ok ())
      | .error e => pure (.error (.io socket e))
  else pure (.ok ())

/-- Listen at a socket that only its owner can talk to. -/
def openSocket (socket : String) : m (Except DaemonError Unit) := do
  match ← clearSocket socket with
  | .error e => pure (.error e)
  | .ok () =>
    match ← listenAt socket with
    | .error e => pure (.error (.io socket e))
    | .ok () => Except.mapError (.io socket) <$> FileSystem.makePrivate socket

/-- Take the socket away. -/
def closeSocket (socket : String) : m Unit := do
  if ← FileSystem.exists? socket then
    let _ ← FileSystem.remove socket

variable [Launcher m] [Journal m] [Clock m]

/-- **One cycle**, entered in the history. -/
def runCycle (source : CycleSource) (d : Daemon) :
    m (Except DaemonError CycleSummary × Daemon) := do
  let started ← Clock.micros
  let (r, deployment) ← d.deployment.cycle
  let ended ← Clock.micros
  let finishedAt ← Clock.unixSeconds
  let result : Except DaemonError CycleSummary :=
    match r with
    | .ok report => .ok { source, report, started, ended, finishedAt }
    | .error e => .error (.state e)
  pure (result, { d with deployment, history := d.history.record result })

/-- **Start a daemon.**  Nothing happens unless the templates parse.  The first cycle runs to its
end even if the daemon cannot stay. -/
def start (s : Settings) : m (Except DaemonError Daemon) := do
  match ← (Deployment.ofSettings s).parseTemplates with
  | (.error e, _) => pure (.error (.template e))
  | (.ok (), deployment) => do
    match ← ensureDirectory s.runDir with
    | .error e => pure (.error e)
    | .ok () => do
      let startedAt ← Clock.unixSeconds
      let watch ← prepareWatch s.stateFile
      let (_, d) ← runCycle .startup { deployment, startedAt }
      let served ← openSocket s.daemonSocket
      match watch, served with
      | .ok (), .ok () => pure (.ok d)
      | .ok (), .error e => pure (.error e)
      | .error e, .ok () => do
        closeSocket s.daemonSocket
        pure (.error e)
      | .error e, .error _ => pure (.error e)

/-- **How the daemon is.** -/
def status (d : Daemon) : m Value := do
  let processId ← Launcher.processId
  pure <| .record [
    ("running", .bool true),
    ("pid", .nat processId),
    ("started_at_unix", .nat d.startedAt),
    ("cycles", .nat d.history.cycles),
    ("failures", .nat d.history.failures),
    ("last_cycle", Value.ofOption (d.history.lastCycle.map CycleSummary.toValue)),
    ("last_error", Value.ofOption (d.history.lastError.map fun e => .text e.message)),
    ("socket", .text d.settings.daemonSocket),
    ("state_file", .text d.settings.stateFile),
    ("config_file", .text d.settings.configFile)]

/-- A daemon with a client at its desk. -/
structure Attended where
  daemon : Daemon
  /-- What the client was told. -/
  responses : List Response := []
  stopAsked : Bool := false

/-- **A daemon that does what its client asks for at once.** -/
instance : Desk (StateT Attended m) where
  status s := do
    let status ← s.daemon.status
    pure (status, s)
  submit _ s := pure (true, s)
  outcome s := do
    let (r, daemon) ← s.daemon.runCycle .socket
    pure (some (r.mapError DaemonError.message), { s with daemon })
  stop s := pure ((), { s with stopAsked := true })
  complaint _ s := pure ("not a request", s)
  respond r s := pure (.ok (), { s with responses := s.responses ++ [r] })

/-- **Serve one connection.**  After a request to stop the socket is taken away. -/
def converse (d : Daemon) (text : String) : m (List Response × Daemon) := do
  let (_, s) ← (Session.serve (Session.linesOf text) : StateT Attended m _) { daemon := d }
  if s.stopAsked then closeSocket s.daemon.settings.daemonSocket
  pure (s.responses, s.daemon)

/-- **Take notice of a changed file** of the watched directory, at a time in milliseconds.  Only
the state file counts, and only a change that is taken runs a cycle. -/
def notice (path : String) (now : Nat) (d : Daemon) : m (Bool × Daemon) := do
  let watched := d.settings.stateFile
  if Path.fileName? path = Path.fileName? watched then
    match d.debounce.accept watched now with
    | (false, debounce) => pure (false, { d with debounce })
    | (true, debounce) => do
      let (_, d) ← runCycle .watcher { d with debounce }
      pure (true, d)
  else pure (false, d)

end Daemon

end Rollout
