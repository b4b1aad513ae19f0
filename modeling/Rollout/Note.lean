import Rollout.Control.Error
import Rollout.Generation.Error
import Rollout.Proxy.Error
import Rollout.Render.Error

/-!
# Note — what is reported while the work goes on

A `Note` is one line of the log: what happened, with a level and a wording.
-/

namespace Rollout

/-- The two phases of building. -/
inductive BuildPhase where
  | frontends
  | backends
  deriving DecidableEq, Repr

/-- The wording of a phase. -/
def BuildPhase.word : BuildPhase → String
  | .frontends => "configuration group"
  | .backends => "backend maps"

/-- **What is worth a line in the log.** -/
inductive Note where
  | nothingPending
  | buildFailed (phase : BuildPhase) (error : BuildError)
  | writeFailed (error : RenderError)
  | validationFailed (error : ProcessError)
  | reloadFailed (error : ProcessError)
  | nothingToChange
  | patched (commands : Nat)
  | reloaded
  | patchFailed (error : ControlError)
  | reloadOutput (output : String)
  | validationSkipped
  | reloadSkipped
  deriving DecidableEq, Repr

namespace Note

/-- How serious a note is. -/
def level : Note → String
  | .buildFailed .. | .writeFailed .. | .validationFailed .. | .reloadFailed .. => "ERROR"
  | .patchFailed .. | .reloadOutput .. => "WARN"
  | _ => "INFO"

/-- The wording of a note. -/
def text : Note → String
  | .nothingPending => "new configuration is empty"
  | .buildFailed phase error => "error building " ++ phase.word ++ ": " ++ error.message
  | .writeFailed error => "error writing configuration: " ++ error.message
  | .validationFailed error => "error validating config file:\n" ++ error.message
  | .reloadFailed error => "error reloading server:\n" ++ error.message
  | .nothingToChange => "old and new configurations match"
  | .patched commands =>
    "HAProxy updated without needing to reload. Commands sent: " ++ Text.decimal commands
  | .reloaded => "HAProxy successfully reloaded"
  | .patchFailed error =>
    "live update failed, falling back to reload error=" ++ error.message
  | .reloadOutput output => "output from haproxy:\n" ++ output
  | .validationSkipped => "(test) check was skipped"
  | .reloadSkipped => "(test) reload was skipped"

/-- A note as a line of the log. -/
def line (n : Note) : String := n.level ++ " " ++ n.text

end Note

/-- A place to leave notes. -/
class Journal (m : Type → Type) where
  note : Note → m Unit

end Rollout
