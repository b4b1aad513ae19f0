import Rollout.Render.Error
import Rollout.State.Store

/-!
# Daemon/Error — why the daemon or its client fails
-/

namespace Rollout

/-- **Why something failed around the daemon.** -/
inductive DaemonError where
  | io (path : String) (fault : SystemFault)
  | state (error : StateError)
  | template (error : RenderError)
  /-- Whoever should take a job or answer it is gone. -/
  | channelClosed (channel : String)
  /-- The reply of the daemon is no response. -/
  | badResponse
  /-- The daemon hung up without a reply. -/
  | hungUp
  /-- The daemon replied with an error. -/
  | refused (reason : Option String)
  /-- Another daemon answers at the socket. -/
  | socketInUse (socket : String)
  /-- The path of the state file ends in no name that could be watched. -/
  | nothingToWatch (path : String)
  /-- Nobody answers at the socket. -/
  | notRunning (socket : String)
  deriving DecidableEq, Repr

namespace DaemonError

/-- The wording of what goes wrong between a daemon and its clients. -/
def protocolText (s : String) : String := "daemon protocol error: " ++ s

/-- The wording of an error. -/
def message : DaemonError → String
  | .io path fault => "I/O error at " ++ path ++ ": " ++ fault.message
  | .state e => "desired state error: " ++ e.message
  | .template e => "template error: " ++ e.message
  | .channelClosed channel => "channel closed: " ++ channel
  | .badResponse => "JSON error: not a response"
  | .hungUp => protocolText "daemon closed connection before responding"
  | .refused reason => protocolText (reason.getD "unknown daemon error")
  | .socketInUse socket => protocolText ("daemon socket already in use: " ++ socket)
  | .nothingToWatch path => protocolText ("desired state path has no file name: " ++ path)
  | .notRunning socket => "daemon is not running (socket missing: " ++ socket ++ ")"

end DaemonError

end Rollout
