import Rollout.Note
import Rollout.Text.Duration
import Rollout.Value

/-!
# Cycle/Outcome — how a cycle ends
-/

namespace Rollout

/-- **How one cycle ended.** -/
inductive Outcome where
  /-- No generation was pending. -/
  | empty
  | buildFailed (phase : BuildPhase) (error : BuildError)
  /-- The pending generation serves the same as the last one. -/
  | unchanged
  /-- The running proxy was patched; without commands nothing had to change. -/
  | appliedLive (commands : Nat)
  | reloaded
  | writeFailed (error : RenderError)
  | reloadFailed (error : ProcessError)
  deriving DecidableEq, Repr

namespace Outcome

/-- Does the proxy serve the pending generation? -/
def isSuccess : Outcome → Bool
  | .empty | .unchanged | .appliedLive _ | .reloaded => true
  | _ => false

/-- The short name of an outcome. -/
def label : Outcome → String
  | .empty => "empty"
  | .buildFailed .. => "build_failed"
  | .unchanged => "unchanged"
  | .appliedLive _ => "applied_live"
  | .reloaded => "reloaded"
  | .writeFailed _ => "write_failed"
  | .reloadFailed _ => "reload_failed"

/-- The wording of an outcome. -/
def message : Outcome → String
  | .empty => "new configuration is empty"
  | .buildFailed phase error => "error building " ++ phase.word ++ ": " ++ error.message
  | .unchanged | .appliedLive 0 => "old and new configurations match"
  | .appliedLive commands =>
    "updated without needing to reload, commands sent: " ++ Text.decimal commands
  | .reloaded => "reloaded"
  | .writeFailed error => "error writing configuration: " ++ error.message
  | .reloadFailed error => "error reloading server: " ++ error.message

end Outcome

/-- A checkpoint of a cycle. -/
inductive Checkpoint where
  | written
  | validated
  | reloaded
  deriving DecidableEq, Repr

/-- The label of a checkpoint. -/
def Checkpoint.label : Checkpoint → String
  | .written => "writeTmpl"
  | .validated => "validate"
  | .reloaded => "reload"

/-- A checkpoint that was passed, and when, in microseconds. -/
structure Tick where
  checkpoint : Checkpoint
  time : Nat
  deriving DecidableEq, Repr

/-- What a cycle reports: its end and its checkpoints in order. -/
structure Report where
  outcome : Outcome
  ticks : List Tick := []
  deriving DecidableEq, Repr

/-- **How long it took to reach each checkpoint from the one before**, or from the start. -/
def lapTimes (start : Nat) : List Tick → List (Checkpoint × Nat)
  | [] => []
  | t :: rest => (t.checkpoint, t.time - start) :: lapTimes t.time rest

namespace Report

/-- The lap times on one line. -/
def timingsText (start : Nat) (r : Report) : String :=
  " ".intercalate <| (lapTimes start r.ticks).map fun lap =>
    lap.1.label ++ "=" ++ Text.milliseconds lap.2 ++ "ms"

/-- The lap times as a list of records. -/
def timingsValue (start : Nat) (r : Report) : Value :=
  .list <| (lapTimes start r.ticks).map fun lap => .record [
    ("label", .text lap.1.label),
    ("elapsed_ms", .real (Text.shortMilliseconds lap.2))]

end Report

end Rollout
