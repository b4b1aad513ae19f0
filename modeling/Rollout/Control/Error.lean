import Rollout.System.Fault

/-!
# Control/Error — why a command does not reach the running proxy
-/

namespace Rollout

/-- **Why a command failed.** -/
inductive ControlError where
  | connect (socket : String) (fault : SystemFault)
  | io (socket : String) (fault : SystemFault)
  /-- The proxy answered with a complaint. -/
  | rejected (command reply : String)
  deriving DecidableEq, Repr

/-- The wording of an error. -/
def ControlError.message : ControlError → String
  | .connect socket fault => "cannot connect to runtime socket " ++ socket ++ ": " ++ fault.message
  | .io socket fault => "runtime socket " ++ socket ++ " I/O error: " ++ fault.message
  | .rejected command reply => "command '" ++ command ++ "' rejected: " ++ reply

end Rollout
