import Rollout.System.Fault

/-!
# Render/Error — why a generation cannot be rendered or written
-/

namespace Rollout

/-- **Why a template cannot be parsed, rendered or written.** -/
inductive RenderError where
  /-- Evaluation stopped, at a value that is not there or does not fit. -/
  | evaluation (template detail : String)
  /-- The text of a template is no template. -/
  | parse (template detail : String)
  /-- No template of that name was registered. -/
  | unknownTemplate (template : String)
  /-- A file could not be read or written. -/
  | io (path : String) (fault : SystemFault)
  deriving DecidableEq, Repr

/-- The wording of an error. -/
def RenderError.message : RenderError → String
  | .evaluation template _ => "template engine error: Failed to render '" ++ template ++ "'"
  | .parse template detail => "failed to parse template '" ++ template ++ "': " ++ detail
  | .unknownTemplate template => "template '" ++ template ++ "' is not registered"
  | .io path fault => "I/O error at " ++ path ++ ": " ++ fault.message

end Rollout
