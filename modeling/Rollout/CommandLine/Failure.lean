import Rollout.Daemon.Error
import Rollout.Generation.Error
import Rollout.Settings

/-!
# CommandLine/Failure — telling why a command failed

A failure is told from the outside in: what could not be done, and then each cause behind it.
-/

namespace Rollout

/-- **What could not be done, and why**, outermost cause first. -/
structure Failure where
  context : String
  causes : List String := []
  deriving DecidableEq, Repr

namespace Failure

/-- A message whose further lines are indented. -/
def indentLines (indentation message : String) : String :=
  String.ofList <| message.toList.flatMap fun c =>
    if c = '\n' then '\n' :: indentation.toList else [c]

/-- A cause that stands alone. -/
def causeText (message : String) : String := "    " ++ indentLines "    " message

/-- A cause with its number. -/
def numberedText (n : Nat) (message : String) : String :=
  let number := (Text.digits n)
  String.ofList (List.replicate (5 - number.length) ' ' ++ number) ++ ": "
    ++ indentLines "       " message

/-- The causes, one below the other; several are numbered. -/
def causesText : List String → List String
  | [cause] => [causeText cause]
  | causes => causes.mapIdx numberedText

/-- **The wording of a failure.** -/
def text (f : Failure) : String :=
  "Error: " ++ f.context
    ++ (if f.causes.isEmpty then ""
        else "\n\nCaused by:\n" ++ "\n".intercalate (causesText f.causes))
    ++ "\n"

end Failure

/-- An error with the causes behind it. -/
def SettingsError.causes : SettingsError → List String
  | e@(.notFound _) => [e.message]
  | e@(.parse _) => [e.message, "not a set of options"]
  | e@(.io _ fault) => [e.message, fault.message]

/-- An error with the causes behind it. -/
def StateError.causes : StateError → List String
  | e@(.notFound _) => [e.message]
  | e@(.parse _) => [e.message, "not a desired state"]
  | e@(.io fault) => [e.message, fault.message]

/-- An error with the causes behind it. -/
def RenderError.causes : RenderError → List String
  | e@(.evaluation template detail) =>
    [e.message, "Failed to render '" ++ template ++ "'", detail]
  | e@(.parse _ detail) => [e.message, detail]
  | e@(.unknownTemplate _) => [e.message]
  | e@(.io _ fault) => [e.message, fault.message]

/-- An error with the causes behind it. -/
def DaemonError.causes : DaemonError → List String
  | e@(.io _ fault) => [e.message, fault.message]
  | e@(.state inner) => e.message :: inner.causes
  | e@(.template inner) => e.message :: inner.causes
  | e@.badResponse => [e.message, "not a response"]
  | e => [e.message]

end Rollout
