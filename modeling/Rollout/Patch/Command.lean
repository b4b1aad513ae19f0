import Rollout.State.Basic

/-!
# Patch/Command — changing one server of the running proxy

A `ServerCommand` does one thing to one server; `ServerCommand.text` is the line the control
channel takes.
-/

namespace Rollout

/-- **What can be done to a running server.** -/
inductive ServerAction where
  | setWeight (weight : UInt32)
  /-- Take the server out of traffic. -/
  | maintain
  | setAddress (ip : String) (port : UInt16)
  /-- Let the server take traffic. -/
  | makeReady
  deriving DecidableEq, Repr

/-- One action on one server of one backend. -/
structure ServerCommand where
  backend : String
  server : String
  action : ServerAction
  deriving DecidableEq, Repr

/-- The words of an action. -/
def ServerAction.text : ServerAction → String
  | .setWeight w => "weight " ++ Text.decimal w.toNat
  | .maintain => "state maint"
  | .setAddress ip port => "addr " ++ ip ++ " port " ++ Text.decimal port.toNat
  | .makeReady => "state ready"

/-- **The line of a command.** -/
def ServerCommand.text (c : ServerCommand) : String :=
  "set server " ++ c.backend ++ "/" ++ c.server ++ " " ++ c.action.text

end Rollout
