import Rollout.Control.Channel
import Rollout.Cycle.Run
import Rollout.Proxy.Process
import Rollout.Render.Replace
import Rollout.Settings
import Rollout.State.Store
import Rollout.System.Clock

/-!
# Deployment — an instance at work

A `Deployment` is an instance with its settings and its renderer.  Its cycles patch through the
control socket of the settings, write through the renderer, and check and reload with the commands
of the settings.
-/

namespace Rollout

/-- **An instance, its settings and its renderer.** -/
structure Deployment where
  settings : Settings
  renderer : Renderer
  /-- The two generations. -/
  generations : Instance := {}
  deriving Inhabited

namespace Settings

/-- The commands the settings name. -/
def commands (s : Settings) : ProxyCommands where
  check := s.checkCommand
  reload := s.reloadCommand
  strategy := s.reloadStrategy
  configFile := s.configFile

/-- What the settings ask of a cycle. -/
def cycle (s : Settings) : CycleSettings where
  sortBackends := s.sortBackends
  validateConfig := s.validateConfig

end Settings

namespace Deployment

/-- A deployment before its first cycle, no template parsed. -/
def ofSettings (s : Settings) : Deployment where
  settings := s
  renderer := { layout := s.layout }

/-- Make a generation the pending one. -/
def replace (g : Generation) (d : Deployment) : Deployment :=
  { d with generations := d.generations.replace g }

variable {m : Type → Type} [Monad m] [FileSystem m]

/-- Parse the templates anew. -/
def parseTemplates (d : Deployment) : m (Except RenderError Unit × Deployment) := do
  let (r, renderer) ← d.renderer.parse
  pure (r, { d with renderer })

variable [LocalSockets m] [Launcher m] [Journal m] [Clock m]

/-- Those who act on the world for the cycles of a deployment. -/
def collaborators (d : Deployment) : Collaborators m where
  patch := patch (d.settings.controlSocket.map controlChannel) d.settings.slotIncrement
  write g := do
    match ← d.renderer.write g with
    | .ok _ => pure (.ok ())
    | .error e => pure (.error e)
  validate := d.settings.commands.validate
  reload := d.settings.commands.runReload
  clock := Clock.micros

/-- **One cycle of the deployment.** -/
def update (d : Deployment) : m (Report × Deployment) := do
  let (report, generations) ← d.generations.update d.collaborators d.settings.cycle
  pure (report, { d with generations })

/-- **One cycle with the state of the state file.**  A state that cannot be loaded leaves the
deployment alone. -/
def cycle (d : Deployment) : m (Except StateError Report × Deployment) := do
  match ← StateFormat.yaml.load d.settings.stateFile with
  | .error e => pure (.error e, d)
  | .ok state => do
    let (report, d) ← (d.replace (Generation.ofState state)).update
    pure (.ok report, d)

end Deployment

end Rollout
