import Rollout.System.Fault
import Rollout.Text.Decimal

/-!
# Proxy/Error — why checking or reloading the proxy fails
-/

namespace Rollout

/-- **Why a command of the proxy failed.** -/
inductive ProcessError where
  | spawn (command : String) (fault : SystemFault)
  /-- The proxy refused the written configuration. -/
  | validation (output : String)
  /-- The reload command ended with a status, or by a signal if there is none. -/
  | reload (status : Option Int) (output : String)
  deriving DecidableEq, Repr

/-- How a command ended. -/
def exitText : Option Int → String
  | some status => "status " ++ Text.signed status
  | none => "signal"

/-- The wording of an error. -/
def ProcessError.message : ProcessError → String
  | .spawn command fault => "failed to run " ++ command ++ ": " ++ fault.message
  | .validation output => output
  | .reload status output => "reload command exited with " ++ exitText status ++ ": " ++ output

end Rollout
